import Converge.Executor.Flight
import Converge.Proofs.Grouping.Groups

/-!
# The reports of a batch

Whatever the host answers, a batch has one report for each of its rows, in the order of the rows.

* `runNumbered` runs chains that carry their places with them. The in-order run, the groups one
  after another and a lane are all runs of this kind (`runPlaces_eq`);
* `DeltaReport.subject` is what a report is about; **`subject_executeBatch`**: the reports of a batch
  are about its rows, one by one;
* `executeBatch_singleton`: a batch of one row is the chain of the row.
-/

namespace Converge

/-- What a report is about: the row, and the actions in the order in which they have reports. -/
def DeltaReport.subject (r : DeltaReport) : RowKey × List Action :=
  (r.id, r.reports.map (·.action))

/-- What a planned row is about. -/
def PlannedDelta.subject (p : PlannedDelta) : RowKey × List Action := (p.delta.id, p.actions)

namespace Executor

variable {σ : Type} (ex : Executor σ)

/-! ## 1. Chains -/

/-- Every action has its report, in order. -/
theorem actions_runActions (correlation : Option String) :
    ∀ (spoiled : List String) (actions : List Action) (s : σ),
      (ex.runActions correlation spoiled actions s).value.map (·.action) = actions
  | _, [], _ => rfl
  | _, a :: rest, _ => congrArg (a :: ·) (actions_runActions correlation _ rest _)

theorem subject_runDelta (p : PlannedDelta) (s : σ) :
    (ex.runDelta p s).value.subject = p.subject :=
  Prod.ext rfl (ex.actions_runActions (some p.delta.id.full) [] p.actions s)

/-! ## 2. Chains with their places -/

/-- Runs chains that carry their places, one after another. -/
def runNumbered : List (Nat × PlannedDelta) → σ → Ran σ (List (Nat × DeltaReport))
  | [], s => .idle [] s
  | (i, p) :: rest, s =>
    (ex.runDelta p s).andThen fun report s =>
      (runNumbered rest s).andThen fun later s => .idle ((i, report) :: later) s

theorem value_runNumbered_cons (i : Nat) (p : PlannedDelta) (rest : List (Nat × PlannedDelta))
    (s : σ) : (ex.runNumbered ((i, p) :: rest) s).value =
      (i, (ex.runDelta p s).value) :: (ex.runNumbered rest (ex.runDelta p s).host).value := rfl

theorem commands_runNumbered_cons (i : Nat) (p : PlannedDelta)
    (rest : List (Nat × PlannedDelta)) (s : σ) :
    (ex.runNumbered ((i, p) :: rest) s).commands =
      (ex.runDelta p s).commands ++ (ex.runNumbered rest (ex.runDelta p s).host).commands := by
  simp only [runNumbered, Ran.commands_andThen, Ran.commands_idle, List.append_nil]

theorem chainsAt_cons (planned : List PlannedDelta) (i : Nat) (rest : List Nat) :
    chainsAt planned (i :: rest) =
      match planned[i]? with
      | none => chainsAt planned rest
      | some p => (i, p) :: chainsAt planned rest := by
  unfold chainsAt
  rw [List.filterMap_cons]
  cases planned[i]? <;> rfl

theorem runPlaces_eq (planned : List PlannedDelta) : ∀ (places : List Nat) (s : σ),
    ex.runPlaces planned places s = ex.runNumbered (chainsAt planned places) s
  | [], _ => rfl
  | i :: rest, s => by
    unfold runPlaces
    rw [chainsAt_cons]
    cases planned[i]? with
    | none => exact runPlaces_eq planned rest s
    | some p => simp only [runPlaces_eq planned rest]; rfl

/-- Places of a batch are the places of their chains. -/
theorem fst_chainsAt {planned : List PlannedDelta} :
    ∀ {places : List Nat}, (∀ i ∈ places, i < planned.length) →
      (chainsAt planned places).map (·.1) = places
  | [], _ => rfl
  | i :: rest, h => by
    rw [chainsAt_cons, List.getElem?_eq_getElem (h i List.mem_cons_self)]
    exact congrArg (i :: ·) (fst_chainsAt fun k hk => h k (List.mem_cons_of_mem _ hk))

theorem mem_chainsAt {planned : List PlannedDelta} {places : List Nat} {i : Nat}
    {p : PlannedDelta} : (i, p) ∈ chainsAt planned places ↔ i ∈ places ∧ planned[i]? = some p := by
  unfold chainsAt
  rw [List.mem_filterMap]
  constructor
  · rintro ⟨k, hk, hp⟩
    obtain ⟨q, hq, he⟩ := Option.map_eq_some_iff.mp hp
    cases he
    exact ⟨hk, hq⟩
  · rintro ⟨hi, hp⟩
    exact ⟨i, hi, by rw [hp]; rfl⟩

/-- All places in order give the whole batch. -/
theorem snd_chainsAt_range (planned : List PlannedDelta) :
    (chainsAt planned (List.range planned.length)).map (·.2) = planned := by
  have hall : ∀ l : List PlannedDelta, (List.range l.length).filterMap (l[·]?) = l := by
    intro l
    induction l with
    | nil => rfl
    | cons p rest ih =>
      rw [List.length_cons, List.range_succ_eq_map, List.filterMap_cons, List.filterMap_map]
      exact congrArg (p :: ·) ih
  unfold chainsAt
  rw [List.map_filterMap]
  conv => rhs; rw [← hall planned]
  exact List.filterMap_congr fun i _ => by cases planned[i]? <;> rfl

theorem chainsAt_range_sorted (planned : List PlannedDelta) :
    (chainsAt planned (List.range planned.length)).Pairwise
      fun a b => compare a.1 b.1 = .lt := by
  have h : ((chainsAt planned (List.range planned.length)).map (·.1)).Pairwise
      fun a b => compare a b = .lt := by
    rw [fst_chainsAt fun i hi => List.mem_range.mp hi]
    exact List.pairwise_lt_range.imp Nat.compare_eq_lt.mpr
  exact List.pairwise_map.mp h

/-- Chains that carry their places give reports that carry them. -/
theorem subject_runNumbered : ∀ (chains : List (Nat × PlannedDelta)) (s : σ),
    (ex.runNumbered chains s).value.map (Prod.map id DeltaReport.subject) =
      chains.map (Prod.map id PlannedDelta.subject)
  | [], _ => rfl
  | (i, p) :: rest, s => by
    rw [value_runNumbered_cons, List.map_cons, subject_runNumbered rest]
    exact congrArg (fun x => (i, x) :: _) (ex.subject_runDelta p s)

theorem fst_runNumbered (chains : List (Nat × PlannedDelta)) (s : σ) :
    (ex.runNumbered chains s).value.map (·.1) = chains.map (·.1) := by
  have h := congrArg (List.map Prod.fst) (ex.subject_runNumbered chains s)
  rwa [List.map_map, List.map_map] at h

/-! ## 3. Batches -/

/-- The resources of the rows of a batch. -/
def resourcesOf (planned : List PlannedDelta) : List (List String) :=
  planned.map fun p => p.actions.map Action.resource

theorem schedule_perm (planned : List PlannedDelta) :
    (schedule planned).Perm (List.range planned.length) := by
  have h := Grouping.flatten_groups_perm (resourcesOf planned)
  rwa [resourcesOf, List.length_map] at h

section Collect

variable {planned : List PlannedDelta} {places : List Nat} {reports : List (Nat × DeltaReport)}

/-- Reports on all rows, each once, have different places. -/
theorem nodup_places (hp : places.Perm (List.range planned.length))
    (hr : reports.map (Prod.map id DeltaReport.subject) =
      (chainsAt planned places).map (Prod.map id PlannedDelta.subject)) :
    (reports.map (·.1)).Nodup := by
  have hfst : reports.map (·.1) = places := by
    have h := congrArg (List.map Prod.fst) hr
    rw [List.map_map, List.map_map] at h
    exact h.trans (fst_chainsAt fun i hi => List.mem_range.mp (hp.mem_iff.mp hi))
  rw [hfst]
  exact hp.nodup_iff.mpr List.nodup_range

/-- Reports that were made in some order, put back into the order of the rows. -/
theorem subject_collect (hp : places.Perm (List.range planned.length))
    (hr : reports.map (Prod.map id DeltaReport.subject) =
      (chainsAt planned places).map (Prod.map id PlannedDelta.subject)) :
    ((SortedMap.ofList reports).entries.map (·.2)).map DeltaReport.subject =
      planned.map PlannedDelta.subject := by
  have hnodup := nodup_places hp hr
  -- both sides are the same subjects in ascending order of places
  have hperm : ((SortedMap.ofList reports).entries.map (Prod.map id DeltaReport.subject)).Perm
      ((chainsAt planned (List.range planned.length)).map (Prod.map id PlannedDelta.subject)) := by
    refine ((SortedMap.entries_ofList_perm hnodup).map _).trans ?_
    rw [hr]
    exact (hp.filterMap _).map _
  have hleft : ((SortedMap.ofList reports).entries.map
      (Prod.map id DeltaReport.subject)).Pairwise fun a b => compare a.1 b.1 = .lt :=
    List.pairwise_map.mpr (SortedMap.ofList reports).sorted
  have hright : ((chainsAt planned (List.range planned.length)).map
      (Prod.map id PlannedDelta.subject)).Pairwise fun a b => compare a.1 b.1 = .lt :=
    List.pairwise_map.mpr (chainsAt_range_sorted planned)
  have heq := SortedMap.eq_of_sorted_of_perm hleft hright hperm
  have h := congrArg (List.map Prod.snd) heq
  rw [List.map_map, List.map_map] at h
  rw [List.map_map]
  refine h.trans ?_
  conv => rhs; rw [← snd_chainsAt_range planned]
  rw [List.map_map]
  rfl

end Collect

/-- **A batch has one report for each row, in the order of the rows, with all actions of the row.** -/
theorem subject_executeBatch (planned : List PlannedDelta) (s : σ) :
    (ex.executeBatch planned s).value.map DeltaReport.subject =
      planned.map PlannedDelta.subject := by
  refine subject_collect (schedule_perm planned) ?_
  rw [runPlaces_eq]
  exact ex.subject_runNumbered _ s

/-- Reports about planned rows, one by one, have their names. -/
theorem ids_eq_of_subjects {reports : List DeltaReport} {planned : List PlannedDelta}
    (h : reports.map DeltaReport.subject = planned.map PlannedDelta.subject) :
    reports.map (·.id) = planned.map (·.delta.id) := by
  have hids := congrArg (List.map Prod.fst) h
  rwa [List.map_map, List.map_map] at hids

theorem ids_executeBatch (planned : List PlannedDelta) (s : σ) :
    (ex.executeBatch planned s).value.map (·.id) = planned.map (·.delta.id) :=
  ids_eq_of_subjects (ex.subject_executeBatch planned s)

theorem exists_run_of_mem : ∀ {chains : List (Nat × PlannedDelta)} {s : σ}
    {e : Nat × DeltaReport}, e ∈ (ex.runNumbered chains s).value →
      ∃ p s', (e.1, p) ∈ chains ∧ e.2 = (ex.runDelta p s').value
  | (i, p) :: rest, s, e, he => by
    rw [value_runNumbered_cons] at he
    rcases List.mem_cons.mp he with rfl | he
    · exact ⟨p, s, List.mem_cons_self, rfl⟩
    · obtain ⟨q, s', hq, hr⟩ := exists_run_of_mem he
      exact ⟨q, s', List.mem_cons_of_mem _ hq, hr⟩

/-- A report of a batch is what the chain of one of its rows came to. -/
theorem exists_run_of_mem_executeBatch {planned : List PlannedDelta} {s : σ} {r : DeltaReport}
    (hr : r ∈ (ex.executeBatch planned s).value) :
    ∃ p ∈ planned, ∃ s', r = (ex.runDelta p s').value := by
  have hfst : ((ex.runPlaces planned (schedule planned) s).value.map (·.1)).Nodup :=
    nodup_places (schedule_perm planned) (by rw [runPlaces_eq, subject_runNumbered])
  obtain ⟨e, he, rfl⟩ := List.mem_map.mp hr
  have hmem := (SortedMap.entries_ofList_perm hfst).mem_iff.mp he
  rw [runPlaces_eq] at hmem
  obtain ⟨p, s', hp, hrun⟩ := ex.exists_run_of_mem hmem
  exact ⟨p, List.mem_of_getElem? (mem_chainsAt.mp hp).2, s', hrun⟩

/-- A batch of one row is the chain of the row. -/
theorem executeBatch_singleton (p : PlannedDelta) (s : σ) :
    ex.executeBatch [p] s = (ex.runDelta p s).andThen fun report s => .idle [report] s := by
  have h : schedule [p] = [0] := (schedule_perm [p]).eq_singleton
  unfold executeBatch
  rw [h, runPlaces_eq]
  show Ran.andThen (Ran.andThen _ _) _ = _
  rw [Ran.andThen_assoc]
  rfl

end Executor

end Converge
