import Converge.Action
import Converge.Snapshot

/-!
# Policies

A policy decides, for one table, which actions move the host from the old row to the new one, and
which status row to publish. It sees the empty row on a side where there is no row.

* A policy may refuse a row, and it may break down. Both stay with the row: `Registry.plan`
  answers with an error of that row, `Registry.status` with no status.
* A `Registry` has at most one policy for a table.
-/

namespace Converge

/-! ## 1. Policies -/

/-- A policy did not answer. -/
inductive PolicyFault where
  /-- The row is not acceptable. -/
  | refused (message : String)
  /-- The policy broke down, with a message or without. -/
  | brokeDown (message : Option String)
deriving DecidableEq, Repr

/-- The wording of a fault. -/
def PolicyFault.message : PolicyFault → String
  | .refused message => message
  | .brokeDown message => "policy panicked: " ++ message.getD "unknown panic"

/-- The decisions for one table. -/
structure Policy where
  /-- The actions for a row of the table, given its key, the old and the new row, in the order in
      which they must run. -/
  plan : RowKey → Row → Row → Except PolicyFault (List Action)
  /-- The status row to publish, given the key, the new row and whether every action succeeded. -/
  status : String → Row → Bool → Except PolicyFault (Option Row) := fun _ _ _ => .ok none

/-! ## 2. The policies of the tracked tables -/

/-- Table names to policies. -/
structure Registry where
  policies : SortedMap String Policy

namespace Registry

def empty : Registry := ⟨.empty⟩

/-- The registry with a policy for one more table. -/
def register (r : Registry) (table : String) (policy : Policy) : Except Error Registry :=
  if r.policies.contains table then
    .error (.config ("policy." ++ table) "a policy is already registered for this table")
  else .ok ⟨r.policies.insert table policy⟩

/-- The tables that have a policy, in ascending order. -/
def tables (r : Registry) : List String := r.policies.keys

/-- Every table of the list has a policy; else an error names the first that has none. -/
def ensureCovers (r : Registry) : List String → Except Error Unit
  | [] => .ok ()
  | t :: rest =>
    if r.policies.contains t then r.ensureCovers rest
    else .error (.config ("policy." ++ t) "table is tracked but has no registered policy")

/-- The registry as messages show it. -/
def describe (r : Registry) : String :=
  "PolicyRegistry \x7b tables: " ++ Text.quotedList r.tables ++ " \x7d"

/-! ## 3. Planning -/

/-- The actions for a change of a row. -/
def plan (r : Registry) (d : RowDelta) : Except Error (List Action) :=
  match r.policies.get? d.id.table with
  | none => .error (.unknownTable d.id.table)
  | some policy =>
    match policy.plan d.id (d.old.getD .empty) (d.new.getD .empty) with
    | .ok actions => .ok actions
    | .error fault => .error (.policy d.id.table d.id.key fault.message)

/-- The status row to publish for a row that was worked on. -/
def status (r : Registry) (id : RowKey) (new : Row) (applied : Bool) : Option Row :=
  match r.policies.get? id.table with
  | none => none
  | some policy =>
    match policy.status id.key new applied with
    | .ok row => row
    | .error _ => none

end Registry

/-- A change of a row with the actions planned for it. -/
structure PlannedDelta where
  delta : RowDelta
  actions : List Action
deriving DecidableEq

end Converge
