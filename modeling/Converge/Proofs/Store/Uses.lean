import Mathlib.Tactic.SplitIfs
import Converge.Proofs.Store.Tended

/-!
# All that can be done to a store

Writers, other subscribers and those who publish status rows have the same store in their hands. Only
`set` and `del` touch its rows.

* `Filled`: rows of which none is empty;
* `Use`, `Memory.use`: all that can be done to a store;
* **`filled_use`**: whatever is done to a store, it keeps no empty row, and so nobody reads one from it
  (`filled_of_load`).
-/

namespace Converge

/-! ## 1. Rows of which none is empty -/

/-- No key has the empty row. -/
def Filled (rows : RowKey → Option Row) : Prop := ∀ id, rows id ≠ some .empty

/-- An event never leaves the empty row. -/
theorem ChangeEvent.leaves_ne_empty (e : ChangeEvent) : e.leaves ≠ some .empty := by
  unfold leaves
  cases e.op with
  | del => nofun
  | set =>
    split_ifs with hempty
    · nofun
    · intro he
      exact hempty ((SortedMap.isEmpty_iff e.row).mpr (Option.some.inj he))

/-- Each row afterwards was there before, or it is not the empty one. -/
theorem Filled.of_cases {rows rows' : RowKey → Option Row} (h : Filled rows)
    (hcases : ∀ id, rows' id = rows id ∨ rows' id ≠ some .empty) : Filled rows' := by
  intro id
  rcases hcases id with hrow | hrow
  · rw [hrow]
    exact h id
  · exact hrow

/-! ## 2. What can be done to a store -/

namespace Store

/-- All that others can do to a store. -/
inductive Use where
  | set (id : RowKey) (row : Row)
  | del (id : RowKey)
  /-- An event is sent to every subscription, whatever it says. -/
  | inject (e : ChangeEvent)
  | injectMalformed (message : String)
  | disconnect
  | reconnect
  | load (tables : List String)
  | subscribe (tables : List String)
  | poll (sub : SubId)
  | cancel (sub : SubId)
  | dropSubscription (sub : SubId)
  | setStatus (id : RowKey) (row : Row)
  | clearStatus (id : RowKey)
deriving DecidableEq

/-- The store after it. -/
def Memory.use (m : Memory) : Use → Memory
  | .set id row => m.set id row
  | .del id => m.del id
  | .inject e => m.inject e
  | .injectMalformed message => m.injectMalformed message
  | .disconnect => m.disconnect
  | .reconnect => m.reconnect
  | .load tables => (m.load tables).2
  | .subscribe tables => (m.subscribe tables).2
  | .poll sub => (m.poll sub).2
  | .cancel sub => m.cancel sub
  | .dropSubscription sub => m.dropSubscription sub
  | .setStatus id row => (m.setStatus id row).2
  | .clearStatus id => (m.clearStatus id).2

namespace Memory

variable {m : Memory}

theorem tables_load (m : Memory) (tables : List String) : (m.load tables).2.tables = m.tables := by
  unfold load
  split <;> rfl

theorem tables_subscribe (m : Memory) (tables : List String) :
    (m.subscribe tables).2.tables = m.tables := by
  unfold subscribe
  split <;> rfl

theorem tables_poll (m : Memory) (sub : SubId) : (m.poll sub).2.tables = m.tables := by
  unfold poll
  split <;> rfl

theorem tables_cancel (m : Memory) (sub : SubId) : (m.cancel sub).tables = m.tables := by
  unfold cancel
  split <;> rfl

theorem tables_setStatus (m : Memory) (id : RowKey) (row : Row) :
    (m.setStatus id row).2.tables = m.tables := by
  unfold setStatus
  split <;> rfl

theorem tables_clearStatus (m : Memory) (id : RowKey) :
    (m.clearStatus id).2.tables = m.tables := by
  unfold clearStatus
  split <;> rfl

theorem filled_of_tables {m' : Memory} (h : Filled m.row?) (ht : m'.tables = m.tables) :
    Filled m'.row? := by
  unfold row?
  rw [ht]
  exact h

theorem filled_del (h : Filled m.row?) (id : RowKey) : Filled (m.del id).row? := by
  refine h.of_cases fun id' => ?_
  have hrow : (m.del id).row? id' = if id' = id then none else m.row? id' :=
    rowIn_eraseRow m.tables id id'
  rw [hrow]
  split_ifs with hid
  · exact .inr nofun
  · exact .inl rfl

/-- A row that is set is not the empty one: the empty one deletes the key. -/
theorem filled_set (h : Filled m.row?) (id : RowKey) (row : Row) : Filled (m.set id row).row? := by
  unfold set
  split_ifs with hempty
  · exact filled_del h id
  · refine h.of_cases fun id' => ?_
    have hrow : rowIn (putRow m.tables id row) id' = if id' = id then some row else m.row? id' :=
      rowIn_putRow m.tables id id' row
    show rowIn (putRow m.tables id row) id' = _ ∨ rowIn (putRow m.tables id row) id' ≠ _
    rw [hrow]
    split_ifs with hid
    · exact .inr fun he => hempty ((SortedMap.isEmpty_iff row).mpr (Option.some.inj he))
    · exact .inl rfl

/-- **Whatever is done to a store, it keeps no empty row.** -/
theorem filled_use (h : Filled m.row?) (u : Use) : Filled (m.use u).row? := by
  cases u with
  | set id row => exact filled_set h id row
  | del id => exact filled_del h id
  | inject e => exact h
  | injectMalformed message => exact h
  | disconnect => exact h
  | reconnect => exact h
  | load tables => exact filled_of_tables h (m.tables_load tables)
  | subscribe tables => exact filled_of_tables h (m.tables_subscribe tables)
  | poll sub => exact filled_of_tables h (m.tables_poll sub)
  | cancel sub => exact filled_of_tables h (m.tables_cancel sub)
  | dropSubscription sub => exact h
  | setStatus id row => exact filled_of_tables h (m.tables_setStatus id row)
  | clearStatus id => exact filled_of_tables h (m.tables_clearStatus id)

/-- A load reads stored rows, and no row of a table that was not asked for. -/
theorem row?_of_load {tables : List String} {s : Snapshot} (h : (m.load tables).1 = .ok s)
    (id : RowKey) : s.row? id = if id.table ∈ tables then m.row? id else none := by
  unfold load at h
  split_ifs at h
  obtain rfl := Except.ok.inj h
  exact row?_copyTables m.tables tables id

theorem filled_of_load {tables : List String} {s : Snapshot} (hm : Filled m.row?)
    (h : (m.load tables).1 = .ok s) : Filled s.row? := by
  refine hm.of_cases fun id => ?_
  rw [row?_of_load h]
  split_ifs with hid
  · exact .inl rfl
  · exact .inr nofun

end Memory

end Store

end Converge
