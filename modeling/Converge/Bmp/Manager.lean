import Converge.Policy

/-!
# The policy for the monitoring protocol

The row `table` of the table `BMP` selects which routing tables are monitored. The monitoring
service reads the selection when it starts, so a changed selection stops and starts its unit.
-/

namespace Converge

/-- The routing tables that are monitored. -/
structure BmpSelection where
  neighbor : Bool := false
  ribIn : Bool := false
  ribOut : Bool := false
deriving DecidableEq, Repr

namespace BmpSelection

/-- The selection of a row; a field that is missing is off. -/
def ofRow (row : Row) : BmpSelection where
  neighbor := (row.getBool? "bgp_neighbor_table").getD false
  ribIn := (row.getBool? "bgp_rib_in_table").getD false
  ribOut := (row.getBool? "bgp_rib_out_table").getD false

/-- Something is monitored. -/
def anyEnabled (s : BmpSelection) : Bool := s.neighbor || s.ribIn || s.ribOut

/-- The selection in a line. -/
def describe (s : BmpSelection) : String :=
  "neighbor=" ++ toString s.neighbor ++ ", rib_in=" ++ toString s.ribIn ++
    ", rib_out=" ++ toString s.ribOut

end BmpSelection

/-- Turns the selection into actions on the unit of the monitoring service. -/
structure BmpManager where
  unit : String := "bmp.service"
deriving DecidableEq, Repr

namespace BmpManager

/-- The key of the row that counts. -/
def selectionKey : String := "table"

/-- The plan for a row. -/
def plan (m : BmpManager) (key : String) (old new : Row) : List Action :=
  if key != selectionKey then []
  else if BmpSelection.ofRow old = BmpSelection.ofRow new then []
  else [.service m.unit .stop, .service m.unit .start]

/-- The policy; it publishes no status. -/
def policy (m : BmpManager) : Policy where
  plan id old new := .ok (m.plan id.key old new)

end BmpManager

end Converge
