import Converge.SortedMap
import Converge.Text.Quoted

/-!
# Rows and their keys

A row maps field names to values. The empty row stands for "no row": a store that is given an
empty row forgets the key, and a policy is handed the empty row for a side that is absent.

`RowKey` names a row by table and key, ordered by table first; `RowKey.full` is its written form
`TABLE|key`.
-/

namespace Converge

/-- Field names to values. -/
abbrev Row := SortedMap String String

namespace Row

/-- The value of a field, or a default. -/
def getD (row : Row) (field default : String) : String := (row.get? field).getD default

/-- The words that mean "yes". -/
def affirmative : List String := ["true", "1", "yes", "on", "enabled"]

/-- A field read as a truth value; letters of the ASCII range may be in either case. -/
def getBool? (row : Row) (field : String) : Option Bool :=
  (row.get? field).map fun v => affirmative.contains (v.map Char.toLower)

/-- The row as messages show it. -/
def quoted (row : Row) : String := Text.quotedPairs row.entries

end Row

/-- The name of a row. -/
structure RowKey where
  table : String
  key : String
deriving DecidableEq, Repr, Inhabited

namespace RowKey

instance : Ord RowKey :=
  ⟨compareLex (compareOn RowKey.table) (compareOn RowKey.key)⟩

instance : Std.TransOrd RowKey :=
  inferInstanceAs (Std.TransCmp (compareLex (compareOn RowKey.table) (compareOn RowKey.key)))

instance : Std.LawfulEqOrd RowKey where
  eq_of_compare {a b} h := by
    have h : compareLex (compareOn RowKey.table) (compareOn RowKey.key) a b = .eq := h
    rw [compareLex_eq_eq] at h
    obtain ⟨h₁, h₂⟩ := h
    have h₁ : a.table = b.table := Std.LawfulEqOrd.eq_of_compare h₁
    have h₂ : a.key = b.key := Std.LawfulEqOrd.eq_of_compare h₂
    cases a
    cases b
    simp_all

/-- Within one table names differ by their keys. -/
theorem eq_iff_of_table {a b : RowKey} (h : a.table = b.table) : a.key = b.key ↔ a = b := by
  cases a
  cases b
  simp_all

/-- The written form of a name. -/
def full (k : RowKey) : String := k.table ++ "|" ++ k.key

end RowKey

end Converge
