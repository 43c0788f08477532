import Converge.Snapshot

/-!
# Replaying events on a snapshot

`Snapshot.replay` applies events one after another. Main statements:

* `replay_append`: two lists of events replay like their concatenation;
* `exists_replay`: events of tracked tables can always be replayed, and the tracked tables stay;
* **`row?_replay`**: events that all tell the truth about a store bring the rows they speak of up to
  date and leave the others alone, in whatever order they come.
-/

namespace Converge.Snapshot

/-- The snapshot after events, oldest first. -/
def replay (s : Snapshot) (events : List ChangeEvent) : Except Error Snapshot :=
  events.foldlM apply s

theorem replay_cons_eq_ok {s s' : Snapshot} {e : ChangeEvent} {rest : List ChangeEvent} :
    s.replay (e :: rest) = .ok s' ↔ ∃ next, s.apply e = .ok next ∧ next.replay rest = .ok s' := by
  have hbind : s.replay (e :: rest) = (s.apply e).bind fun next => next.replay rest := rfl
  rw [hbind]
  cases s.apply e with
  | error err => simp [Except.bind]
  | ok next => simp [Except.bind]

theorem replay_append {s s' : Snapshot} {first : List ChangeEvent} (later : List ChangeEvent)
    (h : s.replay first = .ok s') : s.replay (first ++ later) = s'.replay later := by
  unfold replay at h ⊢
  rw [List.foldlM_append, h]
  rfl

theorem tracks_replay : ∀ {events : List ChangeEvent} {s s' : Snapshot},
    s.replay events = .ok s' → ∀ t, s'.tracks t = s.tracks t
  | [], s, s', h, t => by
    cases h
    rfl
  | e :: rest, s, s', h, t => by
    obtain ⟨next, ha, hr⟩ := replay_cons_eq_ok.mp h
    rw [tracks_replay hr t, tracks_apply ha t]

/-- An event that leaves its row as it is leaves the snapshot as it is. -/
theorem eq_of_apply {s s' : Snapshot} {e : ChangeEvent} (h : s.apply e = .ok s')
    (hrow : s.row? e.id = e.leaves) : s' = s := by
  refine ext_row? (tracks_apply h) fun id => ?_
  rw [row?_apply h]
  by_cases hid : id = e.id
  · rw [if_pos hid, hid, hrow]
  · rw [if_neg hid]

/-- Events of tracked tables can be replayed. -/
theorem exists_replay : ∀ (events : List ChangeEvent) (s : Snapshot),
    (∀ e ∈ events, s.tracks e.id.table = true) → ∃ s', s.replay events = .ok s'
  | [], s, _ => ⟨s, rfl⟩
  | e :: rest, s, h => by
    obtain ⟨next, ha⟩ := (apply_eq_ok_iff s e).mpr (h e List.mem_cons_self)
    have hrest : ∀ e' ∈ rest, next.tracks e'.id.table = true := fun e' he' => by
      rw [tracks_apply ha]
      exact h e' (List.mem_cons_of_mem _ he')
    obtain ⟨s', hs'⟩ := exists_replay rest next hrest
    exact ⟨s', replay_cons_eq_ok.mpr ⟨next, ha, hs'⟩⟩

/-- **Events that all agree with `truth` bring their rows up to date.** -/
theorem row?_replay (truth : RowKey → Option Row) : ∀ {events : List ChangeEvent} {s s' : Snapshot},
    (∀ e ∈ events, e.leaves = truth e.id) → s.replay events = .ok s' → ∀ id,
      s'.row? id = if id ∈ events.map (·.id) then truth id else s.row? id
  | [], s, s', _, h, id => by
    cases h
    simp
  | e :: rest, s, s', htrue, h, id => by
    obtain ⟨next, ha, hr⟩ := replay_cons_eq_ok.mp h
    have hrest : ∀ e' ∈ rest, e'.leaves = truth e'.id := fun e' he' =>
      htrue e' (List.mem_cons_of_mem _ he')
    rw [row?_replay truth hrest hr id, row?_apply ha id, htrue e List.mem_cons_self,
      List.map_cons]
    by_cases hin : id ∈ rest.map (·.id)
    · rw [if_pos hin, if_pos (List.mem_cons_of_mem _ hin)]
    · rw [if_neg hin]
      by_cases hid : id = e.id
      · rw [if_pos hid, hid, if_pos List.mem_cons_self]
      · have hnot : id ∉ e.id :: rest.map (·.id) := fun hmem =>
          (List.mem_cons.mp hmem).elim hid hin
        rw [if_neg hid, if_neg hnot]

end Converge.Snapshot
