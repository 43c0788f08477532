import Converge.Row

/-!
# The cache of applied rows

For every key the row that was last applied without a failure. A daemon compares new rows with it
to tell whether there is anything to do.
-/

namespace Converge

/-- The last row of each key that was applied without a failure. -/
abbrev Cache := SortedMap RowKey Row

namespace Cache

/-- Notes that a row was applied, or that it was removed. -/
def record (c : Cache) (id : RowKey) : Option Row → Cache
  | some row => c.insert id row
  | none => c.erase id

/-- **A note answers at its own key and leaves the others alone.** -/
theorem get?_record (c : Cache) (id id' : RowKey) (row : Option Row) :
    (c.record id row).get? id' = if id' = id then row else c.get? id' := by
  cases row with
  | some r => simp [record, SortedMap.get?_insert]
  | none => simp [record, SortedMap.get?_erase]

end Cache

end Converge
