import Converge.Event

/-!
# Snapshots

A snapshot is a view of the tracked tables at one moment. Events move it forward; `diff` tells
which rows two snapshots hold differently.

* `apply` puts the row of an event in place of the old one; an empty row, and every `del`, removes
  the key. An event on a table that is not tracked is an error.
* `diff` has one entry for each row that differs, in ascending order of table and key; a table
  that one side does not track counts as empty there.
-/

namespace Converge

/-- Keys to rows. -/
abbrev Table := SortedMap String Row

/-! ## 1. Differences of a row -/

/-- A row before and after a change; `none` where there is no row. -/
structure RowDelta where
  id : RowKey
  old : Option Row
  new : Option Row
deriving DecidableEq

/-- The row goes away. -/
def RowDelta.isRemoval (d : RowDelta) : Bool := d.new.isNone

/-! ## 2. Snapshots -/

/-- The rows of the tracked tables. -/
structure Snapshot where
  tables : SortedMap String Table
deriving DecidableEq

namespace Snapshot

/-- Tracks the tables, without a row. -/
def tracking (names : List String) : Snapshot :=
  ⟨names.foldl (fun m t => m.insert t .empty) .empty⟩

instance : Inhabited Snapshot := ⟨tracking []⟩

/-- The table is tracked. -/
def tracks (s : Snapshot) (table : String) : Bool := s.tables.contains table

/-- The names of the tracked tables in ascending order. -/
def tableNames (s : Snapshot) : List String := s.tables.keys

/-- The rows of one table. -/
def table? (s : Snapshot) (table : String) : Option Table := s.tables.get? table

/-- One row. -/
def row? (s : Snapshot) (id : RowKey) : Option Row :=
  (s.tables.get? id.table).bind fun t => t.get? id.key

/-- Every row, in ascending order of table and key. -/
def rows (s : Snapshot) : List (RowKey × Row) :=
  s.tables.entries.flatMap fun (name, t) => t.entries.map fun (key, row) => (⟨name, key⟩, row)

/-- The number of rows. -/
def size (s : Snapshot) : Nat := s.rows.length

def isEmpty (s : Snapshot) : Bool := s.size == 0

/-- The snapshot with a row put in, for a bulk load. -/
def insert (s : Snapshot) (id : RowKey) (row : Row) : Except Error Snapshot :=
  match s.tables.get? id.table with
  | none => .error (.unknownTable id.table)
  | some t => .ok ⟨s.tables.insert id.table (t.insert id.key row)⟩

/-- A table after an event on one of its keys. -/
def applyToTable (t : Table) (e : ChangeEvent) : Table :=
  match e.op with
  | .set => if e.row.isEmpty then t.erase e.id.key else t.insert e.id.key e.row
  | .del => t.erase e.id.key

/-- The snapshot after an event. -/
def apply (s : Snapshot) (e : ChangeEvent) : Except Error Snapshot :=
  match s.tables.get? e.id.table with
  | none => .error (.unknownTable e.id.table)
  | some t => .ok ⟨s.tables.insert e.id.table (applyToTable t e)⟩

/-! ## 3. Snapshots told through their rows -/

theorem tracks_iff (s : Snapshot) (table : String) :
    s.tracks table = true ↔ ∃ t, s.tables.get? table = some t := by
  unfold tracks SortedMap.contains
  exact Option.isSome_iff_exists

theorem row?_of_not_tracks {s : Snapshot} {id : RowKey} (h : s.tracks id.table = false) :
    s.row? id = none := by
  unfold tracks SortedMap.contains at h
  unfold row?
  rw [Option.isSome_eq_false_iff, Option.isNone_iff_eq_none] at h
  rw [h]
  rfl

/-- A row is in the list of rows exactly if it is there. -/
theorem mem_rows (s : Snapshot) {id : RowKey} {row : Row} :
    (id, row) ∈ s.rows ↔ s.row? id = some row := by
  unfold rows row?
  rw [List.mem_flatMap, Option.bind_eq_some_iff]
  constructor
  · rintro ⟨⟨name, t⟩, ht, hrow⟩
    obtain ⟨⟨key, r⟩, hr, he⟩ := List.mem_map.mp hrow
    cases he
    exact ⟨t, (SortedMap.get?_eq_some_iff _ _ _).mpr ht, (SortedMap.get?_eq_some_iff _ _ _).mpr hr⟩
  · rintro ⟨t, ht, hrow⟩
    exact ⟨(id.table, t), (SortedMap.get?_eq_some_iff _ _ _).mp ht,
      List.mem_map.mpr ⟨(id.key, row), (SortedMap.get?_eq_some_iff _ _ _).mp hrow, rfl⟩⟩

/-- The rows are in ascending order of table and key. -/
theorem rows_sorted (s : Snapshot) : s.rows.Pairwise fun a b => compare a.1 b.1 = .lt := by
  unfold rows
  refine List.pairwise_flatMap.mpr ⟨fun e _ => ?_, s.tables.sorted.imp fun {a b} hlt => ?_⟩
  · refine List.pairwise_map.mpr (e.2.sorted.imp fun {a b} hlt => ?_)
    show (compare e.1 e.1).then (compare a.1 b.1) = .lt
    rw [show compare e.1 e.1 = .eq from Std.ReflCmp.compare_self, hlt]
    rfl
  · rintro x hx y hy
    obtain ⟨e, -, rfl⟩ := List.mem_map.mp hx
    obtain ⟨e', -, rfl⟩ := List.mem_map.mp hy
    show (compare a.1 b.1).then (compare e.1 e'.1) = .lt
    rw [hlt]
    rfl

/-- **Snapshots with the same tables and the same rows are equal.** -/
theorem ext_row? {a b : Snapshot} (ht : ∀ t, a.tracks t = b.tracks t)
    (hr : ∀ id, a.row? id = b.row? id) : a = b := by
  suffices h : a.tables = b.tables by
    cases a
    cases b
    exact congrArg Snapshot.mk h
  refine SortedMap.ext_get? fun name => ?_
  have hn := ht name
  have hk (key : String) := hr ⟨name, key⟩
  unfold tracks SortedMap.contains at hn
  unfold row? at hk
  cases ha : a.tables.get? name with
  | none =>
    have hb : b.tables.get? name = none := by simpa [ha] using hn
    exact hb.symm
  | some x =>
    cases hb : b.tables.get? name with
    | none => simp [ha, hb] at hn
    | some y =>
      simp only [ha, hb, Option.bind_some] at hk
      rw [SortedMap.ext_get? hk]

theorem get?_applyToTable (t : Table) (e : ChangeEvent) (key : String) :
    (applyToTable t e).get? key = if key = e.id.key then e.leaves else t.get? key := by
  unfold applyToTable ChangeEvent.leaves
  cases e.op with
  | set => by_cases h : e.row.isEmpty <;> simp [h, SortedMap.get?_insert, SortedMap.get?_erase]
  | del => simp [SortedMap.get?_erase]

/-- An event can be applied exactly if its table is tracked. -/
theorem apply_eq_ok_iff (s : Snapshot) (e : ChangeEvent) :
    (∃ s', s.apply e = .ok s') ↔ s.tracks e.id.table = true := by
  rw [tracks_iff]
  unfold apply
  cases s.tables.get? e.id.table with
  | none => simp
  | some t => simp

theorem tracks_apply {s s' : Snapshot} {e : ChangeEvent} (h : s.apply e = .ok s') (t : String) :
    s'.tracks t = s.tracks t := by
  unfold apply at h
  split at h
  · cases h
  · rename_i table ht
    cases h
    unfold tracks SortedMap.contains
    rw [SortedMap.get?_insert]
    by_cases hn : t = e.id.table
    · rw [if_pos hn, hn, ht]
      rfl
    · rw [if_neg hn]

/-- **An event answers at its own key and leaves the others alone.** -/
theorem row?_apply {s s' : Snapshot} {e : ChangeEvent} (h : s.apply e = .ok s') (id : RowKey) :
    s'.row? id = if id = e.id then e.leaves else s.row? id := by
  unfold apply at h
  split at h
  · cases h
  · rename_i table ht
    cases h
    unfold row?
    rw [SortedMap.get?_insert]
    by_cases hn : id.table = e.id.table
    · rw [if_pos hn, Option.bind_some, get?_applyToTable, hn, ht, Option.bind_some]
      simp only [RowKey.eq_iff_of_table hn]
    · rw [if_neg hn, if_neg fun he => hn (congrArg RowKey.table he)]

/-! ## 4. Comparing -/

/-- The keys of either map, ascending, each once. -/
def eitherKeys {ν₁ ν₂ : Type} (a : SortedMap String ν₁) (b : SortedMap String ν₂) : List String :=
  (SortedMap.ofList ((a.keys ++ b.keys).map fun k => (k, ()))).keys

/-- The rows of one table that differ. -/
def diffTable (name : String) (old new : Table) : List RowDelta :=
  (eitherKeys old new).filterMap fun key =>
    let before := old.get? key
    let after := new.get? key
    if before = after then none else some ⟨⟨name, key⟩, before, after⟩

/-- The rows that differ, in ascending order of table and key. -/
def diff (old new : Snapshot) : List RowDelta :=
  (eitherKeys old.tables new.tables).flatMap fun name =>
    diffTable name ((old.table? name).getD .empty) ((new.table? name).getD .empty)

end Snapshot

end Converge
