import Converge.Store.Memory

/-!
# Ready-made changes of the configuration

A `ConfigChange` sets or deletes a row; it can be shown as an event and applied to a store. The
fixtures below are the changes that tests of the two daemons use most.
-/

namespace Converge.Testkit

/-- A row is set or deleted. -/
structure ConfigChange where
  id : RowKey
  op : Operation
  fields : Row
deriving DecidableEq

namespace ConfigChange

def set (table key : String) : ConfigChange := ⟨⟨table, key⟩, .set, .empty⟩

def del (table key : String) : ConfigChange := ⟨⟨table, key⟩, .del, .empty⟩

/-- The change with more fields; of several values of one field the last counts. -/
def withFields (c : ConfigChange) (fields : List (String × String)) : ConfigChange :=
  { c with fields := fields.foldl (fun m (k, v) => m.insert k v) c.fields }

/-- The change as an event. -/
def event (c : ConfigChange) : ChangeEvent :=
  match c.op with
  | .set => .set c.id c.fields
  | .del => .del c.id

/-- A store after the change. -/
def applyTo (c : ConfigChange) (m : Store.Memory) : Store.Memory :=
  match c.op with
  | .set => m.set c.id c.fields
  | .del => m.del c.id

end ConfigChange

namespace Fixture

def featureEnabled (name : String) : ConfigChange :=
  (ConfigChange.set "FEATURE" name).withFields [("state", "enabled")]

def featureDisabled (name : String) : ConfigChange :=
  (ConfigChange.set "FEATURE" name).withFields [("state", "disabled")]

def featureAutoRestart (name setting : String) : ConfigChange :=
  (featureEnabled name).withFields [("auto_restart", setting)]

/-- A row whose template was never filled in. -/
def featureUnrendered (name : String) : ConfigChange :=
  (ConfigChange.set "FEATURE" name).withFields [("state",
    "\x7b% if not (DEVICE_METADATA is defined) %\x7denabled\x7b% else %\x7ddisabled\x7b% endif %\x7d")]

def featurePerChip (name : String) : ConfigChange :=
  (featureEnabled name).withFields
    [("has_global_scope", "False"), ("has_per_asic_scope", "True")]

def deleteFeature (name : String) : ConfigChange := .del "FEATURE" name

def bmpSelection (neighbor ribIn ribOut : Bool) : ConfigChange :=
  (ConfigChange.set "BMP" "table").withFields
    [("bgp_neighbor_table", toString neighbor), ("bgp_rib_in_table", toString ribIn),
      ("bgp_rib_out_table", toString ribOut)]

def bmpAllDisabled : ConfigChange := bmpSelection false false false

end Fixture

end Converge.Testkit
