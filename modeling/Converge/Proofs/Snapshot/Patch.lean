import Converge.Proofs.Store.Uses

/-!
# Differences of snapshots are patches

`Snapshot.diff` finds each row that two snapshots hold differently, once. `RowDelta.event` is the event
that makes the change of a row.

* `mem_eitherKeys`, `eitherKeys_sorted`: the keys of two maps, none missed and none repeated;
* `mem_diff`: the changes are those of the rows that differ, with the rows of both sides;
* `diff_sorted`: they come in ascending order of table and key;
* **`diff_patches`**: the events of the changes lead from the old snapshot to the new one, in whatever
  order they come.
-/

namespace Converge

/-- The event that makes the change. -/
def RowDelta.event (d : RowDelta) : ChangeEvent :=
  match d.new with
  | some row => .set d.id row
  | none => .del d.id

@[simp] theorem RowDelta.event_id (d : RowDelta) : d.event.id = d.id := by
  unfold event
  split <;> rfl

/-- The event leaves the new row, which is not the empty one. -/
theorem RowDelta.event_leaves {d : RowDelta} (h : d.new ≠ some .empty) : d.event.leaves = d.new := by
  unfold event
  split
  · rename_i row hrow
    have hfull : row.isEmpty = false := Bool.eq_false_iff.mpr fun hempty =>
      h (hrow.trans (congrArg some ((SortedMap.isEmpty_iff row).mp hempty)))
    rw [ChangeEvent.leaves_set hfull, hrow]
  · rename_i hrow
    rw [ChangeEvent.leaves_del, hrow]

namespace Snapshot

/-! ## 1. The keys of two maps -/

section Keys

variable {ν₁ ν₂ : Type} (a : SortedMap String ν₁) (b : SortedMap String ν₂)

/-- A key is found exactly if one of the maps answers at it. -/
theorem mem_eitherKeys {k : String} : k ∈ eitherKeys a b ↔ a.get? k ≠ none ∨ b.get? k ≠ none := by
  have hkeys : ((a.keys ++ b.keys).map fun k => (k, ())).map (·.1) = a.keys ++ b.keys := by
    rw [List.map_map]
    exact List.map_id _
  unfold eitherKeys
  rw [SortedMap.mem_keys_ofList, hkeys, List.mem_append, Ne, Ne, SortedMap.get?_eq_none_iff,
    SortedMap.get?_eq_none_iff, not_not, not_not]

theorem eitherKeys_sorted : (eitherKeys a b).Pairwise fun k k' => compare k k' = .lt :=
  List.pairwise_map.mpr (SortedMap.sorted _)

end Keys

/-! ## 2. The rows that differ -/

/-- A table that is not tracked is as good as one without a row. -/
theorem get?_table? (s : Snapshot) (id : RowKey) :
    ((s.table? id.table).getD .empty).get? id.key = s.row? id := by
  unfold table? row?
  cases s.tables.get? id.table with
  | none => rfl
  | some t => rfl

theorem mem_diffTable {name : String} {old new : Table} {d : RowDelta} :
    d ∈ diffTable name old new ↔
      d.id.table = name ∧ d.old = old.get? d.id.key ∧ d.new = new.get? d.id.key ∧ d.old ≠ d.new := by
  unfold diffTable
  rw [List.mem_filterMap]
  constructor
  · rintro ⟨key, -, hd⟩
    dsimp only at hd
    split at hd
    · cases hd
    · rename_i hne
      cases hd
      exact ⟨rfl, rfl, rfl, hne⟩
  · rintro ⟨rfl, hold, hnew, hne⟩
    -- equal answers on both sides are no change, so one side answers
    have hkey : d.id.key ∈ eitherKeys old new := by
      rw [mem_eitherKeys, ← hold, ← hnew, ← not_and_or]
      exact fun hnone => hne (hnone.1.trans hnone.2.symm)
    refine ⟨d.id.key, hkey, ?_⟩
    dsimp only
    rw [← hold, ← hnew, if_neg hne]

/-- **The changes are those of the rows that differ**, with the rows of both sides. -/
theorem mem_diff {old new : Snapshot} {d : RowDelta} :
    d ∈ diff old new ↔ d.old = old.row? d.id ∧ d.new = new.row? d.id ∧ d.old ≠ d.new := by
  unfold diff
  rw [List.mem_flatMap]
  constructor
  · rintro ⟨name, -, hd⟩
    obtain ⟨rfl, hold, hnew, hne⟩ := mem_diffTable.mp hd
    rw [get?_table?] at hold hnew
    exact ⟨hold, hnew, hne⟩
  · rintro ⟨hold, hnew, hne⟩
    have hname : d.id.table ∈ eitherKeys old.tables new.tables := by
      rw [mem_eitherKeys, ← not_and_or]
      rintro ⟨hnone, hnone'⟩
      refine hne ?_
      rw [hold, hnew, row?, row?, hnone, hnone']
    refine ⟨d.id.table, hname, mem_diffTable.mpr ⟨rfl, ?_, ?_, hne⟩⟩
    · rw [get?_table?, hold]
    · rw [get?_table?, hnew]

/-- A row that is not among the changes is the same on both sides. -/
theorem row?_eq_of_not_mem_diff {old new : Snapshot} {id : RowKey}
    (h : id ∉ (diff old new).map RowDelta.id) : old.row? id = new.row? id := by
  by_contra hne
  exact h (List.mem_map.mpr ⟨⟨id, old.row? id, new.row? id⟩, mem_diff.mpr ⟨rfl, rfl, hne⟩, rfl⟩)

/-! ## 3. Their order -/

theorem diffTable_sorted (name : String) (old new : Table) :
    (diffTable name old new).Pairwise fun d d' => compare d.id.key d'.id.key = .lt := by
  unfold diffTable
  refine List.pairwise_filterMap.mpr ((eitherKeys_sorted old new).imp ?_)
  intro key key' hlt d hd d' hd'
  dsimp only at hd hd'
  split at hd
  · cases hd
  · split at hd'
    · cases hd'
    · cases hd
      cases hd'
      exact hlt

/-- **The changes come in ascending order of table and key.** -/
theorem diff_sorted (old new : Snapshot) :
    (diff old new).Pairwise fun d d' => compare d.id d'.id = .lt := by
  unfold diff
  refine List.pairwise_flatMap.mpr ⟨fun name _ => ?_, (eitherKeys_sorted _ _).imp ?_⟩
  · refine (diffTable_sorted name _ _).imp_of_mem fun {d d'} hd hd' hlt => ?_
    obtain ⟨rfl, -⟩ := mem_diffTable.mp hd
    show (compare d.id.table d'.id.table).then (compare d.id.key d'.id.key) = .lt
    have hself : compare d.id.table d.id.table = .eq := Std.ReflCmp.compare_self
    rw [(mem_diffTable.mp hd').1, hself, hlt]
    rfl
  · intro name name' hlt d hd d' hd'
    show (compare d.id.table d'.id.table).then (compare d.id.key d'.id.key) = .lt
    rw [(mem_diffTable.mp hd).1, (mem_diffTable.mp hd').1, hlt]
    rfl

/-! ## 4. Patches -/

/-- The changes lead from one snapshot to the other. -/
structure Patches (old new : Snapshot) (deltas : List RowDelta) : Prop where
  /-- Their events do, in whatever order they come. -/
  replay_eq : ∀ events, events.Perm (deltas.map RowDelta.event) → old.replay events = .ok new
  ascending : deltas.Pairwise fun d d' => compare d.id d'.id = .lt
  once : (deltas.map RowDelta.id).Nodup
  /-- They are those of the rows that differ, with the rows of both sides. -/
  mem_iff : ∀ d, d ∈ deltas ↔ d.old = old.row? d.id ∧ d.new = new.row? d.id ∧ d.old ≠ d.new
  nil_iff : deltas = [] ↔ old = new

variable {old new : Snapshot}

theorem nodup_ids_diff (old new : Snapshot) : ((diff old new).map RowDelta.id).Nodup := by
  refine List.pairwise_map.mpr ((diff_sorted old new).imp fun {d d'} hlt he => ?_)
  have hself : compare d'.id d'.id = .eq := Std.ReflCmp.compare_self
  rw [he, hself] at hlt
  cases hlt

/-- Only a tracked table has rows that differ. -/
theorem tracks_of_mem_diff (htracks : ∀ t, old.tracks t = new.tracks t) {d : RowDelta}
    (hd : d ∈ diff old new) : old.tracks d.id.table = true := by
  obtain ⟨hold, hnew, hne⟩ := mem_diff.mp hd
  by_contra hnot
  have hnot := eq_false_of_ne_true hnot
  refine hne ?_
  rw [hold, hnew, row?_of_not_tracks hnot, row?_of_not_tracks ((htracks _).symm.trans hnot)]

/-- The events of the changes bring every row up to date, in whatever order they come. -/
theorem replay_diff (htracks : ∀ t, old.tracks t = new.tracks t) (hfilled : Filled new.row?)
    {events : List ChangeEvent} (hperm : events.Perm ((diff old new).map RowDelta.event)) :
    old.replay events = .ok new := by
  have hmem : ∀ e ∈ events, ∃ d ∈ diff old new, d.event = e := fun e he =>
    List.mem_map.mp (hperm.mem_iff.mp he)
  have htracked : ∀ e ∈ events, old.tracks e.id.table = true := fun e he => by
    obtain ⟨d, hd, rfl⟩ := hmem e he
    rw [RowDelta.event_id]
    exact tracks_of_mem_diff htracks hd
  have htrue : ∀ e ∈ events, e.leaves = new.row? e.id := fun e he => by
    obtain ⟨d, hd, rfl⟩ := hmem e he
    have hnew := (mem_diff.mp hd).2.1
    rw [RowDelta.event_id, RowDelta.event_leaves (hnew ▸ hfilled d.id), hnew]
  have hids : (events.map ChangeEvent.id).Perm ((diff old new).map RowDelta.id) := by
    have hevents := hperm.map ChangeEvent.id
    rwa [List.map_map, show ChangeEvent.id ∘ RowDelta.event = RowDelta.id from
      funext RowDelta.event_id] at hevents
  obtain ⟨now, hnow⟩ := exists_replay events old htracked
  suffices h : now = new by rw [hnow, h]
  refine ext_row? (fun t => (tracks_replay hnow t).trans (htracks t)) fun id => ?_
  rw [row?_replay new.row? htrue hnow]
  split
  · rfl
  · rename_i hnot
    exact row?_eq_of_not_mem_diff (hids.mem_iff.not.mp hnot)

/-- **Differences are patches**, between any two snapshots of the same tables without empty rows. -/
theorem diff_patches (htracks : ∀ t, old.tracks t = new.tracks t) (hfilled : Filled new.row?) :
    Patches old new (diff old new) where
  replay_eq _ hperm := replay_diff htracks hfilled hperm
  ascending := diff_sorted old new
  once := nodup_ids_diff old new
  mem_iff _ := mem_diff
  nil_iff := by
    constructor
    · intro hnil
      refine ext_row? htracks fun id => row?_eq_of_not_mem_diff ?_
      rw [hnil]
      exact List.not_mem_nil
    · rintro rfl
      exact List.eq_nil_iff_forall_not_mem.mpr fun d hd => by
        obtain ⟨hold, hnew, hne⟩ := mem_diff.mp hd
        exact hne (hold.trans hnew.symm)

/-- Two tables with three rows. -/
def earlier : Snapshot where
  tables := .ofList [
    ("BMP", .ofList [("table", .ofList [("bgp_neighbor_table", "true")])]),
    ("FEATURE", .ofList [
      ("dhcp_relay", .ofList [("state", "enabled")]),
      ("ntp", .ofList [("state", "enabled")])])]

/-- The same tables when one row has changed, one has gone and one has come. -/
def later : Snapshot where
  tables := .ofList [
    ("BMP", .ofList [("table", .ofList [("bgp_neighbor_table", "true")])]),
    ("FEATURE", .ofList [
      ("lldp", .ofList [("state", "enabled")]),
      ("ntp", .ofList [("state", "disabled")])])]

/-- The three events may come in any order, and the row that is the same needs none. -/
theorem diff_patches_later :
    (∀ t, earlier.tracks t = later.tracks t) ∧ Filled later.row? ∧
    (diff earlier later).map RowDelta.event =
      [.del ⟨"FEATURE", "dhcp_relay"⟩,
        .set ⟨"FEATURE", "lldp"⟩ (.ofList [("state", "enabled")]),
        .set ⟨"FEATURE", "ntp"⟩ (.ofList [("state", "disabled")])] ∧
    Patches earlier later (diff earlier later) := by
  have hevents : (diff earlier later).map RowDelta.event =
      [.del ⟨"FEATURE", "dhcp_relay"⟩,
        .set ⟨"FEATURE", "lldp"⟩ (.ofList [("state", "enabled")]),
        .set ⟨"FEATURE", "ntp"⟩ (.ofList [("state", "disabled")])] := by decide +kernel
  have hreplay : earlier.replay ((diff earlier later).map RowDelta.event) = .ok later := by
    rw [hevents]
    rfl
  have htracks : ∀ t, earlier.tracks t = later.tracks t := fun t => (tracks_replay hreplay t).symm
  have hfull : ∀ entry ∈ later.rows, entry.2 ≠ .empty := by decide +kernel
  have hfilled : Filled later.row? := fun id hempty => hfull (id, .empty) ((mem_rows _).mpr hempty) rfl
  exact ⟨htracks, hfilled, hevents, diff_patches htracks hfilled⟩

end Snapshot

end Converge
