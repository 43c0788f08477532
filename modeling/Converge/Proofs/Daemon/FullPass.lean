import Mathlib.Data.Finset.Card
import Converge.Proofs.Daemon.Attempts

/-!
# Full passes

What a full pass does with every key, for any snapshot, any applied rows, any policies and any host.

* `mem_passDeltas`, `nodup_passDeltas`: a full pass has one change for each key that the snapshot or
  the applied rows know, from the applied row to the row of the snapshot;
* `get?_noteAll`: attempts on different keys do not disturb each other's notes;
* **`fullPass_accounted`**: all of it together, with the counts.
-/

namespace Converge

namespace Daemon

variable {σ : Type} {cache : Cache} {snapshot : Snapshot}

/-! ## 1. The changes of a full pass -/

/-- A change is part of a full pass exactly if it leads from the applied row to the row of the
    snapshot, and one of them is there. -/
theorem mem_passDeltas {delta : RowDelta} :
    delta ∈ passDeltas cache snapshot ↔
      delta.old = cache.get? delta.id ∧ delta.new = snapshot.row? delta.id ∧
        (delta.new.isSome ∨ delta.old.isSome) := by
  obtain ⟨id, old, new⟩ := delta
  unfold passDeltas
  rw [List.mem_append, List.mem_map, List.mem_map]
  constructor
  · rintro (⟨⟨id', row⟩, hrow, he⟩ | ⟨⟨id', row⟩, hrow, he⟩)
    · cases he
      exact ⟨rfl, ((Snapshot.mem_rows _).mp hrow).symm, .inl rfl⟩
    · cases he
      obtain ⟨hentry, hgone⟩ := List.mem_filter.mp hrow
      exact ⟨((SortedMap.get?_eq_some_iff _ _ _).mpr hentry).symm,
        (Option.isNone_iff_eq_none.mp hgone).symm, .inr rfl⟩
  · rintro ⟨hold, hnew, hthere⟩
    simp only at hold hnew hthere
    cases new with
    | some row =>
      exact .inl ⟨(id, row), (Snapshot.mem_rows _).mpr hnew.symm, by rw [hold]⟩
    | none =>
      obtain ⟨row, rfl⟩ := Option.isSome_iff_exists.mp (hthere.resolve_left nofun)
      refine .inr ⟨(id, row), List.mem_filter.mpr ⟨?_, ?_⟩, rfl⟩
      · exact (SortedMap.get?_eq_some_iff _ _ _).mp hold.symm
      · exact Option.isNone_iff_eq_none.mpr hnew.symm

/-- No key has two changes. -/
theorem nodup_passDeltas (cache : Cache) (snapshot : Snapshot) :
    ((passDeltas cache snapshot).map (·.id)).Nodup := by
  unfold passDeltas
  rw [List.map_append, List.map_map, List.map_map]
  refine List.nodup_append.mpr ⟨?_, ?_, ?_⟩
  · exact SortedMap.nodup_of_sorted snapshot.rows_sorted
  · exact cache.nodup_keys.sublist (List.filter_sublist.map _)
  · intro id hrow id' hgone he
    obtain ⟨⟨key, row⟩, hthere, rfl⟩ := List.mem_map.mp hrow
    obtain ⟨⟨key', row'⟩, hfilter, rfl⟩ := List.mem_map.mp hgone
    obtain rfl : key = key' := he
    have hnone : (snapshot.row? key).isNone = true := (List.mem_filter.mp hfilter).2
    rw [(Snapshot.mem_rows _).mp hthere] at hnone
    cases hnone

/-- A key has a change exactly if the snapshot or the applied rows know it. -/
theorem mem_ids_passDeltas {id : RowKey} :
    id ∈ (passDeltas cache snapshot).map (·.id) ↔
      (snapshot.row? id).isSome ∨ (cache.get? id).isSome := by
  rw [List.mem_map]
  constructor
  · rintro ⟨delta, hdelta, rfl⟩
    obtain ⟨hold, hnew, hthere⟩ := mem_passDeltas.mp hdelta
    rwa [← hold, ← hnew]
  · intro hthere
    exact ⟨⟨id, cache.get? id, snapshot.row? id⟩, mem_passDeltas.mpr ⟨rfl, rfl, hthere⟩, rfl⟩

/-! ## 2. Notes -/

theorem get?_note (cache : Cache) (delta : RowDelta) (ok : Bool) (id : RowKey) :
    (note cache delta ok).get? id =
      if id = delta.id ∧ ok = true then delta.new else cache.get? id := by
  unfold note
  cases ok with
  | true => simp [Cache.get?_record]
  | false => simp

theorem get?_noteAll_of_not_mem {id : RowKey} : ∀ {attempts : List Attempt} {cache : Cache},
    id ∉ attempts.map (·.delta.id) → (noteAll cache attempts).get? id = cache.get? id
  | [], _, _ => rfl
  | a :: rest, cache, h => by
    rw [List.map_cons, List.mem_cons, not_or] at h
    refine (get?_noteAll_of_not_mem h.2).trans ?_
    rw [get?_note, if_neg fun hc => h.1 hc.1]

/-- **Of attempts on different keys, each is noted at its own key.** -/
theorem get?_noteAll : ∀ {attempts : List Attempt} {cache : Cache},
    (attempts.map (·.delta.id)).Nodup → ∀ a ∈ attempts,
      (noteAll cache attempts).get? a.delta.id =
        if a.succeeded then a.delta.new else cache.get? a.delta.id
  | b :: rest, cache, hnodup, a, ha => by
    obtain ⟨hnew, hrest⟩ : b.delta.id ∉ _ ∧ _ := List.nodup_cons.mp hnodup
    rcases List.mem_cons.mp ha with rfl | ha
    · -- the attempts behind this one are on other keys
      refine (get?_noteAll_of_not_mem hnew).trans ?_
      rw [get?_note]
      simp
    · have hne : ¬ (a.delta.id = b.delta.id ∧ b.succeeded = true) := fun hc =>
        hnew (by rw [← hc.1]; exact List.mem_map_of_mem ha)
      refine (get?_noteAll hrest a ha).trans ?_
      rw [get?_note, if_neg hne]

/-- The row of a key after attempts is the one before, or the new row of one of them. -/
theorem get?_noteAll_cases (id : RowKey) : ∀ (attempts : List Attempt) (cache : Cache),
    (noteAll cache attempts).get? id = cache.get? id ∨
      ∃ a ∈ attempts, (noteAll cache attempts).get? id = a.delta.new
  | [], _ => .inl rfl
  | a :: rest, cache => by
    rcases get?_noteAll_cases id rest (note cache a.delta a.succeeded) with hrow | ⟨b, hb, hrow⟩
    · rw [get?_note] at hrow
      split_ifs at hrow
      · exact .inr ⟨a, List.mem_cons_self, hrow⟩
      · exact .inl hrow
    · exact .inr ⟨b, List.mem_cons_of_mem _ hb, hrow⟩

/-! ## 3. The account of a full pass -/

/-- The keys of the snapshot and of the applied rows. -/
def knownKeys (k : Knowledge) (snapshot : Snapshot) : Finset RowKey :=
  (snapshot.rows.map (·.1)).toFinset ∪ k.applied.keys.toFinset

theorem toFinset_passDeltas (k : Knowledge) (snapshot : Snapshot) :
    ((passDeltas k.applied snapshot).map (·.id)).toFinset = knownKeys k snapshot := by
  ext id
  have hrow : id ∈ snapshot.rows.map (·.1) ↔ (snapshot.row? id).isSome := by
    rw [List.mem_map, Option.isSome_iff_exists]
    constructor
    · rintro ⟨⟨key, row⟩, hrow, rfl⟩
      exact ⟨row, (Snapshot.mem_rows _).mp hrow⟩
    · rintro ⟨row, hrow⟩
      exact ⟨(id, row), (Snapshot.mem_rows _).mpr hrow, rfl⟩
  have hkey : id ∈ k.applied.keys ↔ (k.applied.get? id).isSome := by
    rw [← not_iff_not, ← SortedMap.get?_eq_none_iff, Option.not_isSome_iff_eq_none]
  unfold knownKeys
  rw [List.mem_toFinset, mem_ids_passDeltas, Finset.mem_union, List.mem_toFinset,
    List.mem_toFinset, hrow, hkey]

/-- What a full pass over a snapshot has done, told by its attempts. -/
structure Accounted (d : Daemon σ) (snapshot : Snapshot) (k k' : Knowledge)
    (summary : PassSummary) (attempts : List Attempt) : Prop where
  /-- Every key that is known has one attempt. -/
  once : (attempts.map (·.delta.id)).Nodup
  covers : ∀ id, id ∈ attempts.map (·.delta.id) ↔ id ∈ knownKeys k snapshot
  /-- An attempt leads from the applied row to the row of the snapshot. -/
  old_eq : ∀ a ∈ attempts, a.delta.old = k.applied.get? a.delta.id
  new_eq : ∀ a ∈ attempts, a.delta.new = snapshot.row? a.delta.id
  /-- What the policy refuses has no report; otherwise the report is of the chain of the plan. -/
  refused : ∀ a ∈ attempts, ∀ e, d.registry.plan a.delta = .error e → a.report = none
  ran : ∀ a ∈ attempts, ∀ actions, d.registry.plan a.delta = .ok actions →
    ∃ s, a.report = some (d.executor.runDelta ⟨a.delta, actions⟩ s).value
  /-- The counts. -/
  deltas_eq : summary.deltas = (knownKeys k snapshot).card
  applied_eq : summary.applied = attempts.countP Attempt.succeeded
  deltas_eq_add : summary.deltas = summary.applied + summary.failed
  /-- What is known after it. -/
  snapshot_eq : k'.snapshot = snapshot
  noted : ∀ a ∈ attempts, a.succeeded = true →
    k'.applied.get? a.delta.id = snapshot.row? a.delta.id
  kept : ∀ a ∈ attempts, a.succeeded = false →
    k'.applied.get? a.delta.id = k.applied.get? a.delta.id
  untouched : ∀ id, id ∉ knownKeys k snapshot → k'.applied.get? id = k.applied.get? id
  in_step : summary.failed = 0 → ∀ id, k'.applied.get? id = snapshot.row? id

/-- **A full pass, whatever was applied before, whatever the policies say and whatever the host
    answers.** -/
theorem fullPass_accounted (d : Daemon σ) (snapshot : Snapshot) (k : Knowledge) (s : σ) :
    Accounted d snapshot k (d.fullPass snapshot k s).value.1 (d.fullPass snapshot k s).value.2
      (d.attempts k.applied (passDeltas k.applied snapshot) s) := by
  have hnodup := nodup_passDeltas k.applied snapshot
  have hids := d.ids_attempts k.applied (passDeltas k.applied snapshot) s
  have hpart : ∀ a ∈ d.attempts k.applied (passDeltas k.applied snapshot) s,
      a.delta ∈ passDeltas k.applied snapshot := fun a ha => d.delta_mem ha
  rw [d.fullPass_eq s hnodup]
  generalize hattempts : d.attempts k.applied (passDeltas k.applied snapshot) s = attempts
    at hids hpart ⊢
  have honce : (attempts.map (·.delta.id)).Nodup := hids ▸ hnodup
  have hcovers : ∀ id, id ∈ attempts.map (·.delta.id) ↔ id ∈ knownKeys k snapshot := fun id => by
    rw [hids, ← toFinset_passDeltas, List.mem_toFinset]
  have hnew : ∀ a ∈ attempts, a.delta.new = snapshot.row? a.delta.id :=
    fun a ha => (mem_passDeltas.mp (hpart a ha)).2.1
  have hnoted : ∀ a ∈ attempts, (noteAll k.applied attempts).get? a.delta.id =
      if a.succeeded then a.delta.new else k.applied.get? a.delta.id := get?_noteAll honce
  have hnotedNew : ∀ a ∈ attempts, a.succeeded = true →
      (noteAll k.applied attempts).get? a.delta.id = snapshot.row? a.delta.id := fun a ha ok => by
    rw [hnoted a ha, if_pos ok, hnew a ha]
  have huntouched : ∀ id, id ∉ knownKeys k snapshot →
      (noteAll k.applied attempts).get? id = k.applied.get? id := fun id hid =>
    get?_noteAll_of_not_mem fun hmem => hid ((hcovers id).mp hmem)
  have hlength : attempts.length =
      attempts.countP Attempt.succeeded + attempts.countP fun a => !a.succeeded := by
    have h := List.length_eq_countP_add_countP Attempt.succeeded (l := attempts)
    simpa only [Bool.not_eq_true, Bool.decide_eq_false] using h
  exact {
    once := honce
    covers := hcovers
    old_eq := fun a ha => (mem_passDeltas.mp (hpart a ha)).1
    new_eq := hnew
    refused := fun a ha e he => by
      rw [← hattempts] at ha
      exact d.report_of_refused ha he
    ran := fun a ha actions hplan => by
      rw [← hattempts] at ha
      exact d.exists_report hnodup ha hplan
    deltas_eq := by
      rw [← toFinset_passDeltas, List.toFinset_card_of_nodup hnodup, ← hids, List.length_map]
    applied_eq := rfl
    deltas_eq_add := hlength
    snapshot_eq := rfl
    noted := hnotedNew
    kept := fun a ha failed => by rw [hnoted a ha, if_neg (by simp [failed])]
    untouched := huntouched
    in_step := fun hzero id => by
      by_cases hid : id ∈ attempts.map (·.delta.id)
      · obtain ⟨a, ha, rfl⟩ := List.mem_map.mp hid
        have ok := List.countP_eq_zero.mp hzero a ha
        exact hnotedNew a ha (by simpa using ok)
      · rw [huntouched id fun h => hid ((hcovers id).mpr h)]
        rw [hids, mem_ids_passDeltas, not_or, Option.not_isSome_iff_eq_none,
          Option.not_isSome_iff_eq_none] at hid
        rw [hid.1, hid.2] }

end Daemon

end Converge
