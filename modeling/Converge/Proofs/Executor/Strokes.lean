import Converge.Proofs.Executor.Chains
import Converge.Proofs.Executor.Scheduling

/-!
# The strokes of a batch

A `Stroke` is an action of a row that came to its report. The strokes of a batch stand in the order in
which they were done, which is another one for each way in which the lanes can move. Nothing is
assumed of the host.

* `BatchOrder`, `batchBy`: the groups one after another, or lanes that move in a given order;
* `Lane.moves_step`: a step of a lane is at most one stroke, and nothing of its work gets lost;
* `told_follow`: so it is with lanes that move in some order, each of them for itself;
* **`done_batchBy`**: whatever the order, the strokes are what was done, all of them are in the
  reports, and **on each resource they are in the order of the batch**.
-/

namespace Converge

/-! ## 1. Strokes -/

/-- An action of a row, and how it came out. -/
structure Stroke where
  id : RowKey
  report : ActionReport

/-- What a stroke is about: the row and the action. -/
def Stroke.subject (x : Stroke) : RowKey × Action := (x.id, x.report.action)

/-- The strokes of reports, one report after another. -/
def strokesOf (reports : List DeltaReport) : List Stroke :=
  reports.flatMap fun r => r.reports.map fun x => ⟨r.id, x⟩

/-- The actions of rows, row after row, each with its row. -/
def workOf (subjects : List (RowKey × List Action)) : List (RowKey × Action) :=
  subjects.flatMap fun x => x.2.map fun a => (x.1, a)

/-- The work on a resource, in order. -/
def workOn (r : String) (work : List (RowKey × Action)) : List (RowKey × Action) :=
  work.filter fun x => x.2.resource = r

theorem subject_strokesOf (reports : List DeltaReport) :
    (strokesOf reports).map Stroke.subject = workOf (reports.map DeltaReport.subject) := by
  unfold strokesOf workOf
  rw [List.map_flatMap, List.flatMap_map]
  refine List.flatMap_congr fun r _ => ?_
  rw [List.map_map]
  show _ = (r.reports.map _).map _
  rw [List.map_map]
  rfl

theorem mem_workOf {subjects : List (RowKey × List Action)} {x : RowKey × Action} :
    x ∈ workOf subjects ↔ ∃ actions, (x.1, actions) ∈ subjects ∧ x.2 ∈ actions := by
  unfold workOf
  rw [List.mem_flatMap]
  constructor
  · rintro ⟨⟨id, actions⟩, hmem, hx⟩
    obtain ⟨a, ha, rfl⟩ := List.mem_map.mp hx
    exact ⟨actions, hmem, ha⟩
  · rintro ⟨actions, hmem, ha⟩
    exact ⟨(x.1, actions), hmem, List.mem_map.mpr ⟨x.2, ha, rfl⟩⟩

theorem mem_strokesOf {reports : List DeltaReport} {x : Stroke} :
    x ∈ strokesOf reports ↔ ∃ r ∈ reports, r.id = x.id ∧ x.report ∈ r.reports := by
  unfold strokesOf
  rw [List.mem_flatMap]
  constructor
  · rintro ⟨r, hr, hx⟩
    obtain ⟨y, hy, rfl⟩ := List.mem_map.mp hx
    exact ⟨r, hr, rfl, hy⟩
  · rintro ⟨r, hr, hid, hx⟩
    exact ⟨r, hr, List.mem_map.mpr ⟨x.report, hx, by rw [hid]⟩⟩

namespace Executor

variable {σ : Type} {ex : Executor σ}

/-! ## 2. Lanes -/

namespace Lane

/-- The stroke of the next step of a lane, if the step is an action. -/
def stroke? (ex : Executor σ) (l : Lane) (s : σ) : Option Stroke :=
  match l.running with
  | none => none
  | some c =>
    match c.todo with
    | [] => none
    | a :: _ => some ⟨c.id, a, (ex.act (some c.id.full) c.spoiled a s).value⟩

/-- The strokes of a lane so far. -/
def told (l : Lane) : List Stroke :=
  strokesOf (l.finished.map (·.2)) ++ l.running.elim [] fun c => c.reports.map fun x => ⟨c.id, x⟩

/-- What a lane is about, whatever it has done of it. -/
def subjects (l : Lane) : List (Nat × RowKey × List Action) :=
  l.finished.map (Prod.map id DeltaReport.subject) ++
    (l.running.elim [] fun c => [(c.place, c.id, c.reports.map (·.action) ++ c.todo)]) ++
      l.waiting.map (Prod.map id PlannedDelta.subject)

/-- What a step of a lane does, given its stroke if it is one. -/
structure Moves (ex : Executor σ) (l : Lane) (stroke : Option Stroke) (r : Ran σ Lane) : Prop where
  told : r.value.told = l.told ++ stroke.toList
  subjects : r.value.subjects = l.subjects
  deeds : r.deeds = stroke.toList.flatMap fun x => ex.deedsOf (some x.id.full) x.report

/-- **A step is a stroke or none**, and what the lane is about stays as it is. -/
theorem moves_step {l : Lane} {s : σ} {r : Ran σ Lane} (h : l.step ex s = some r) :
    l.Moves ex (l.stroke? ex s) r := by
  rcases step_cases h with ⟨i, p, rest, finished, rfl, rfl⟩ |
    ⟨place, id, spoiled, reports, waiting, finished, rfl, rfl⟩ |
    ⟨place, id, spoiled, a, rest, reports, waiting, finished, rfl, rfl⟩
  · refine ⟨?_, ?_, rfl⟩
    · simp [told, stroke?, Ran.idle]
    · simp [subjects, Ran.idle, PlannedDelta.subject]
  · refine ⟨?_, ?_, rfl⟩
    · simp [told, stroke?, Ran.idle, strokesOf]
    · simp [subjects, Ran.idle, DeltaReport.subject]
  · refine ⟨?_, ?_, ?_⟩
    · simp [told, stroke?, Ran.idle, Ran.andThen]
    · simp [subjects, Ran.idle, Ran.andThen]
    · simp [stroke?, Ran.idle, Ran.andThen, ex.deeds_act]

end Lane

/-! ## 3. Lanes that move in some order -/

namespace Flight

/-- The strokes of lanes that move in the given order, each with its lane. -/
def strokes (ex : Executor σ) : List Nat → Flight σ → List (Nat × Stroke)
  | [], _ => []
  | i :: rest, fl =>
    match fl.lanes[i]?, fl.step ex i with
    | some l, some next => (l.stroke? ex fl.host).toList.map (i, ·) ++ strokes ex rest next
    | _, _ => []

/-- What lanes under way have done between two points. -/
structure Told (ex : Executor σ) (fl fl' : Flight σ) (strokes : List (Nat × Stroke)) : Prop where
  subjects : fl'.lanes.map Lane.subjects = fl.lanes.map Lane.subjects
  told : ∀ (i : Nat) (l l' : Lane), fl.lanes[i]? = some l → fl'.lanes[i]? = some l' →
    l'.told = l.told ++ (strokes.filter fun x => x.1 = i).map (·.2)
  owned : ∀ x ∈ strokes, x.1 < fl.lanes.length
  deeds : fl'.deeds =
    fl.deeds ++ strokes.flatMap fun x => ex.deedsOf (some x.2.id.full) x.2.report

namespace Told

variable {fl fl' fl'' : Flight σ} {xs ys : List (Nat × Stroke)}

theorem length (h : Told ex fl fl' xs) : fl'.lanes.length = fl.lanes.length := by
  simpa using congrArg List.length h.subjects

theorem refl (fl : Flight σ) : Told ex fl fl [] where
  subjects := rfl
  told i l l' hl hl' := by
    cases Option.some.inj (hl.symm.trans hl')
    exact (List.append_nil _).symm
  owned _ hx := absurd hx List.not_mem_nil
  deeds := (List.append_nil _).symm

theorem trans (h : Told ex fl fl' xs) (h' : Told ex fl' fl'' ys) :
    Told ex fl fl'' (xs ++ ys) where
  subjects := h'.subjects.trans h.subjects
  told i l l'' hl hl'' := by
    have hlt : i < fl'.lanes.length := by
      rw [h.length]
      exact (List.getElem?_eq_some_iff.mp hl).1
    have hmid := List.getElem?_eq_getElem hlt
    rw [h'.told i _ l'' hmid hl'', h.told i l _ hl hmid, List.filter_append, List.map_append,
      List.append_assoc]
  owned x hx := by
    rcases List.mem_append.mp hx with hx | hx
    · exact h.owned x hx
    · have hlt := h'.owned x hx
      rwa [h.length] at hlt
  deeds := by
    rw [h'.deeds, h.deeds, List.flatMap_append, List.append_assoc]

/-- One step. -/
theorem step {i : Nat} {l : Lane} (hl : fl.lanes[i]? = some l) (hs : fl.step ex i = some fl') :
    Told ex fl fl' ((l.stroke? ex fl.host).toList.map (i, ·)) := by
  obtain ⟨l₀, r, hl₀, hr, rfl⟩ := Flight.step_eq_some hs
  cases Option.some.inj (hl.symm.trans hl₀)
  have hmoves := Lane.moves_step hr
  refine ⟨?_, fun k a b ha hb => ?_, fun x hx => ?_, ?_⟩
  · refine List.ext_getElem? fun k => ?_
    rw [List.map_set, List.getElem?_set, List.getElem?_map]
    split
    · rename_i hik
      obtain ⟨hlt, -⟩ := List.getElem?_eq_some_iff.mp hl
      rw [if_pos (by rwa [List.length_map]), ← hik, hl, hmoves.subjects]
      rfl
    · rfl
  · rcases getElem?_set_cases hb with ⟨rfl, rfl⟩ | ⟨hki, hb⟩
    · cases Option.some.inj (hl.symm.trans ha)
      rw [hmoves.told]
      cases l.stroke? ex fl.host <;> simp
    · -- the other lanes have neither moved nor got a stroke
      cases Option.some.inj (ha.symm.trans hb)
      cases l.stroke? ex fl.host <;> simp [Ne.symm hki]
  · obtain ⟨y, -, rfl⟩ := List.mem_map.mp hx
    exact (List.getElem?_eq_some_iff.mp hl).1
  · show fl.deeds ++ r.deeds = _
    rw [hmoves.deeds, List.flatMap_map]

end Told

/-- **Whatever the order of the lanes, each of them has done its own strokes in order.** -/
theorem told_follow : ∀ {order : List Nat} {fl fl' : Flight σ}, fl.follow ex order = some fl' →
    Told ex fl fl' (fl.strokes ex order)
  | [], fl, _, h => by
    cases h
    exact .refl fl
  | i :: rest, fl, fl', h => by
    obtain ⟨next, hs, hrest⟩ := Option.bind_eq_some_iff.mp h
    obtain ⟨l, r, hl, -, -⟩ := Flight.step_eq_some hs
    have hstrokes : fl.strokes ex (i :: rest) =
        (l.stroke? ex fl.host).toList.map (i, ·) ++ next.strokes ex rest := by
      simp only [strokes, hl, hs]
    rw [hstrokes]
    exact (Told.step hl hs).trans (told_follow hrest)

end Flight

/-! ## 4. The work on one resource -/

section Work

variable {planned : List PlannedDelta}

/-- The work of chains at places of the batch. -/
def workAt (planned : List PlannedDelta) (places : List Nat) : List (RowKey × Action) :=
  workOf ((chainsAt planned places).map fun n => n.2.subject)

theorem exists_of_mem_workAt {places : List Nat} {x : RowKey × Action}
    (hx : x ∈ workAt planned places) :
    ∃ k ∈ places, ∃ p, planned[k]? = some p ∧ x.2 ∈ p.actions := by
  obtain ⟨actions, hmem, ha⟩ := mem_workOf.mp hx
  obtain ⟨⟨k, p⟩, hk, he⟩ := List.mem_map.mp hmem
  obtain ⟨hplace, hp⟩ := mem_chainsAt.mp hk
  obtain rfl : p.actions = actions := congrArg Prod.snd he
  exact ⟨k, hplace, p, hp, ha⟩

/-- The work at the places of a group is on the resources of the group. -/
theorem laneResources_of_mem {i : Nat} {g : List Nat} (hg : (groupsOf planned)[i]? = some g)
    {x : RowKey × Action} (hx : x ∈ workAt planned g) : laneResources planned i x.2.resource := by
  obtain ⟨k, hk, p, hp, ha⟩ := exists_of_mem_workAt hx
  exact ⟨g, hg, k, hk, p, hp, x.2, ha, rfl⟩

/-- Of chains of which only some are on a resource, these do the work on it. -/
theorem workOn_filter (mine : Nat → Bool) (r : String) : ∀ {chains : List (Nat × PlannedDelta)},
    (∀ n ∈ chains, mine n.1 = false → ∀ a ∈ n.2.actions, a.resource ≠ r) →
      workOn r (workOf ((chains.filter fun n => mine n.1).map fun n => n.2.subject)) =
        workOn r (workOf (chains.map fun n => n.2.subject))
  | [], _ => rfl
  | n :: rest, h => by
    have ih := workOn_filter mine r fun m hm => h m (List.mem_cons_of_mem _ hm)
    have hcons : workOn r (workOf ((n :: rest).map fun n => n.2.subject)) =
        workOn r (n.2.actions.map fun a => (n.2.delta.id, a)) ++
          workOn r (workOf (rest.map fun n => n.2.subject)) := List.filter_append _ _
    rw [hcons, ← ih]
    cases hn : mine n.1 with
    | true =>
      rw [List.filter_cons_of_pos (p := fun n : Nat × PlannedDelta => mine n.1) hn]
      exact List.filter_append _ _
    | false =>
      have hnone : workOn r (n.2.actions.map fun a => (n.2.delta.id, a)) = [] := by
        refine List.filter_eq_nil_iff.mpr fun x hx => ?_
        obtain ⟨a, ha, rfl⟩ := List.mem_map.mp hx
        simpa using h n List.mem_cons_self hn a ha
      rw [List.filter_cons_of_neg (p := fun n : Nat × PlannedDelta => mine n.1) (by simp [hn]),
        hnone, List.nil_append]

/-- **Chains in an order that keeps the order of a group do the work on a resource of the group in the
    order of the group.** -/
theorem workOn_workAt {i : Nat} {g : List Nat} (hg : (groupsOf planned)[i]? = some g) {r : String}
    (hr : laneResources planned i r) {places : List Nat}
    (horder : places.filter (· ∈ g) = g) :
    workOn r (workAt planned places) = workOn r (workAt planned g) := by
  have hchains : (chainsAt planned places).filter (fun n => decide (n.1 ∈ g)) =
      chainsAt planned g :=
    (filter_chainsAt places fun k => decide (k ∈ g)).trans (congrArg _ horder)
  unfold workAt
  rw [← hchains]
  refine (workOn_filter (fun k => decide (k ∈ g)) r fun n hn hmine a ha he => ?_).symm
  -- a row on the resource is in a group that has the resource, and there is only one
  obtain ⟨hplace, hp⟩ := mem_chainsAt.mp hn
  obtain ⟨hlt, -⟩ := exists_resource hp ha
  obtain ⟨g', hg', hk⟩ := Grouping.exists_group ⟨n.1, hlt⟩
  obtain ⟨j, hj⟩ := List.getElem?_of_mem hg'
  have hrj : laneResources planned j r := ⟨g', hj, n.1, hk, n.2, hp, a, ha, he⟩
  obtain rfl := apart_laneResources planned i j r hr hrj
  cases Option.some.inj (hg.symm.trans hj)
  exact (of_decide_eq_false hmine) hk

/-- On a resource that belongs to no group there is no work. -/
theorem workOn_eq_nil {r : String} (hr : ∀ i, ¬ laneResources planned i r)
    {work : List (RowKey × Action)}
    (hwork : ∀ x ∈ work, ∃ i, laneResources planned i x.2.resource) : workOn r work = [] := by
  refine List.filter_eq_nil_iff.mpr fun x hx => ?_
  obtain ⟨i, hi⟩ := hwork x hx
  simp only [decide_eq_true_eq]
  exact fun he => hr i (he ▸ hi)

theorem workAt_range : workAt planned (List.range planned.length) =
    workOf (planned.map PlannedDelta.subject) := by
  unfold workAt
  conv => rhs; rw [← snd_chainsAt_range planned]
  rw [List.map_map]
  rfl

/-- Whatever work a batch is about is on a resource of a group. -/
theorem exists_laneResources {places : List Nat} {x : RowKey × Action}
    (hx : x ∈ workAt planned places) : ∃ i, laneResources planned i x.2.resource := by
  obtain ⟨k, -, p, hp, ha⟩ := exists_of_mem_workAt hx
  obtain ⟨hlt, -⟩ := exists_resource hp ha
  obtain ⟨g, hg, hkg⟩ := Grouping.exists_group ⟨k, hlt⟩
  obtain ⟨i, hi⟩ := List.getElem?_of_mem hg
  exact ⟨i, g, hi, k, hkg, p, hp, x.2, ha, rfl⟩

/-- The rows of a batch do the work on a resource of a group in the order of the group. -/
theorem workOn_group {i : Nat} {g : List Nat} (hg : (groupsOf planned)[i]? = some g) {r : String}
    (hr : laneResources planned i r) :
    workOn r (workOf (planned.map PlannedDelta.subject)) = workOn r (workAt planned g) := by
  rw [← workAt_range]
  refine workOn_workAt hg hr ?_
  rw [← length_resourcesOf]
  exact Grouping.filter_range_group (List.mem_of_getElem? hg)

/-- **Work on resources of groups that does the work of each group in order is in the order of the
    batch on each resource.** -/
theorem workOn_eq_of_groups {work : List (RowKey × Action)}
    (hwork : ∀ x ∈ work, ∃ i, laneResources planned i x.2.resource)
    (hgroup : ∀ {i g r}, (groupsOf planned)[i]? = some g → laneResources planned i r →
      workOn r work = workOn r (workAt planned g)) (r : String) :
    workOn r work = workOn r (workOf (planned.map PlannedDelta.subject)) := by
  by_cases hr : ∃ i, laneResources planned i r
  · obtain ⟨i, hi⟩ := hr
    obtain ⟨g, hg, -⟩ := id hi
    rw [hgroup hg hi, workOn_group hg hi]
  · -- the resource is in no group, so neither of them has work on it
    have hnone : ∀ i, ¬ laneResources planned i r := fun i hi => hr ⟨i, hi⟩
    rw [workOn_eq_nil hnone hwork, ← workAt_range,
      workOn_eq_nil hnone fun _ hx => exists_laneResources hx]

end Work

/-! ## 5. Batches -/

/-- A way to run a batch. -/
inductive BatchOrder where
  /-- One group after another. -/
  | inTurn
  /-- All groups together, their lanes moving in the given order. -/
  | lanes (order : List Nat)

/-- A batch that was run, with its strokes in the order in which they were done. -/
structure BatchRun (σ : Type) where
  strokes : List Stroke
  ran : Ran σ (List DeltaReport)

/-- Runs a batch in the given way, if the lanes can move in that order and come to their end. -/
def batchBy (ex : Executor σ) (planned : List PlannedDelta) (s : σ) :
    BatchOrder → Option (BatchRun σ)
  | .inTurn =>
    some ⟨strokesOf ((ex.runPlaces planned (schedule planned) s).value.map (·.2)),
      ex.executeBatch planned s⟩
  | .lanes order =>
    ((Flight.launch planned s).follow ex order).bind fun fl =>
      if fl.isOver then
        some ⟨((Flight.launch planned s).strokes ex order).map (·.2), ⟨fl.reports, fl.host, fl.deeds⟩⟩
      else none

/-- What is true of a batch whatever the order in which it was run. -/
structure Done (ex : Executor σ) (planned : List PlannedDelta) (b : BatchRun σ) : Prop where
  /-- There is one report for each row, with all actions of the row. -/
  subject_eq : b.ran.value.map DeltaReport.subject = planned.map PlannedDelta.subject
  /-- The strokes are what was done. -/
  deeds_eq : b.ran.deeds = b.strokes.flatMap fun x => ex.deedsOf (some x.id.full) x.report
  reported : ∀ x ∈ b.strokes, x ∈ strokesOf b.ran.value
  /-- On each resource the order is that of the batch. -/
  workOn_eq : ∀ r, workOn r (b.strokes.map Stroke.subject) =
    workOn r (workOf (planned.map PlannedDelta.subject))

section Batches

variable {planned : List PlannedDelta} {s : σ}

theorem deeds_runNumbered (ex : Executor σ) : ∀ (chains : List (Nat × PlannedDelta)) (s : σ),
    (ex.runNumbered chains s).deeds =
      (strokesOf ((ex.runNumbered chains s).value.map (·.2))).flatMap
        fun x => ex.deedsOf (some x.id.full) x.report
  | [], _ => rfl
  | (i, p) :: rest, s => by
    have hrow : (ex.runDelta p s).deeds =
        (ex.runDelta p s).value.reports.flatMap (ex.deedsOf (some p.delta.id.full)) := by
      show (ex.runActions (some p.delta.id.full) [] p.actions s).deeds ++ [] = _
      rw [List.append_nil, deeds_runActions]
      rfl
    have hcons : (ex.runNumbered ((i, p) :: rest) s).deeds =
        (ex.runDelta p s).deeds ++ ((ex.runNumbered rest (ex.runDelta p s).host).deeds ++ []) := rfl
    rw [hcons, List.append_nil, deeds_runNumbered ex rest, hrow, value_runNumbered_cons]
    show _ = List.flatMap _ (_ ++ _)
    rw [List.flatMap_append, List.flatMap_map]
    rfl

/-- Reports that were put into the order of the rows are still the same reports. -/
theorem mem_collect {reports : List (Nat × DeltaReport)} (hnodup : (reports.map (·.1)).Nodup)
    {x : Stroke} (hx : x ∈ strokesOf (reports.map (·.2))) :
    x ∈ strokesOf ((SortedMap.ofList reports).entries.map (·.2)) := by
  obtain ⟨r, hr, hx⟩ := mem_strokesOf.mp hx
  have hperm := (SortedMap.entries_ofList_perm hnodup).map (·.2)
  exact mem_strokesOf.mpr ⟨r, hperm.mem_iff.mpr hr, hx⟩

/-- The groups one after another. -/
theorem done_inTurn (ex : Executor σ) (planned : List PlannedDelta) (s : σ) :
    Done ex planned ⟨strokesOf ((ex.runPlaces planned (schedule planned) s).value.map (·.2)),
      ex.executeBatch planned s⟩ := by
  have hsubject := ex.subject_runNumbered (chainsAt planned (schedule planned)) s
  have hfst : ((ex.runPlaces planned (schedule planned) s).value.map (·.1)).Nodup :=
    nodup_places (schedule_perm planned) (by rw [runPlaces_eq, subject_runNumbered])
  refine ⟨ex.subject_executeBatch planned s, ?_, fun x hx => mem_collect hfst hx, fun r => ?_⟩
  · show (ex.runPlaces planned (schedule planned) s).deeds ++ [] = _
    rw [List.append_nil, runPlaces_eq]
    exact ex.deeds_runNumbered _ s
  · have hwork : (strokesOf ((ex.runPlaces planned (schedule planned) s).value.map (·.2))).map
        Stroke.subject = workAt planned (schedule planned) := by
      have h := congrArg (List.map Prod.snd) hsubject
      rw [List.map_map, List.map_map] at h
      rw [subject_strokesOf, runPlaces_eq, List.map_map]
      exact congrArg workOf h
    show workOn r ((strokesOf _).map Stroke.subject) = _
    rw [hwork]
    exact workOn_eq_of_groups (fun _ hx => exists_laneResources hx)
      (fun hg hi => workOn_workAt hg hi (Grouping.filter_flatten_group (List.mem_of_getElem? hg))) r

/-- What lanes that are over have done, lane by lane: the strokes of a lane are those of its reports,
    and the reports are about the rows of its group. -/
theorem lane_over {order : List Nat} {fl : Flight σ}
    (h : (Flight.launch planned s).follow ex order = some fl) (hover : fl.isOver = true) {i : Nat}
    {g : List Nat} (hg : (groupsOf planned)[i]? = some g) :
    ∃ l, fl.lanes[i]? = some l ∧
      l.finished.map (Prod.map id DeltaReport.subject) =
        (chainsAt planned g).map (Prod.map id PlannedDelta.subject) ∧
      strokesOf (l.finished.map (·.2)) =
        (((Flight.launch planned s).strokes ex order).filter fun x => x.1 = i).map (·.2) := by
  have htold := Flight.told_follow h
  have hb : (Flight.launch planned s).lanes[i]? = some (Lane.ofGroup planned g) := by
    show ((groupsOf planned).map _)[i]? = _
    rw [List.getElem?_map, hg]
    rfl
  have hlt : i < fl.lanes.length := by
    rw [htold.length]
    exact (List.getElem?_eq_some_iff.mp hb).1
  have hl := List.getElem?_eq_getElem hlt
  refine ⟨fl.lanes[i], hl, ?_⟩
  have hsubjects : fl.lanes[i].subjects = (Lane.ofGroup planned g).subjects := by
    have hmap := congrArg (·[i]?) htold.subjects
    simp only [List.getElem?_map, hl, hb, Option.map_some] at hmap
    exact Option.some.inj hmap
  have hstrokes := htold.told i _ _ hb hl
  -- a lane that is over has nothing under way and nothing left
  obtain ⟨hr, hw⟩ := Bool.and_eq_true_iff.mp
    (List.all_eq_true.mp hover _ (List.mem_of_getElem? hl))
  have hr : fl.lanes[i].running = none := Option.isNone_iff_eq_none.mp hr
  have hw : fl.lanes[i].waiting = [] := List.isEmpty_iff.mp hw
  unfold Lane.subjects at hsubjects
  unfold Lane.told at hstrokes
  rw [hr, hw] at hsubjects
  rw [hr] at hstrokes
  constructor
  · simpa [Lane.ofGroup] using hsubjects
  · simpa [Lane.ofGroup, strokesOf] using hstrokes

/-- Lanes that are over have reports about the rows of their groups. -/
theorem subject_lanes {order : List Nat} {fl : Flight σ}
    (h : (Flight.launch planned s).follow ex order = some fl) (hover : fl.isOver = true) :
    (fl.lanes.flatMap Lane.finished).map (Prod.map id DeltaReport.subject) =
      (chainsAt planned (schedule planned)).map (Prod.map id PlannedDelta.subject) := by
  have hlength : fl.lanes.length = (groupsOf planned).length :=
    (Flight.told_follow h).length.trans (List.length_map _)
  have hlanes : fl.lanes.map (fun l => l.finished.map (Prod.map id DeltaReport.subject)) =
      (groupsOf planned).map fun g => (chainsAt planned g).map (Prod.map id PlannedDelta.subject) := by
    refine List.ext_getElem (by simp [hlength]) fun i hi hi' => ?_
    rw [List.length_map] at hi hi'
    obtain ⟨l, hl, hfinished, -⟩ := lane_over h hover (List.getElem?_eq_getElem hi')
    rw [List.getElem_map, List.getElem_map, ← hfinished]
    cases Option.some.inj ((List.getElem?_eq_getElem hi).symm.trans hl)
    rfl
  have hchains : chainsAt planned (schedule planned) = (groupsOf planned).flatMap (chainsAt planned) :=
    List.filterMap_flatten ..
  rw [hchains, List.map_flatMap, List.map_flatMap, List.flatMap_def, hlanes, ← List.flatMap_def]

/-- The strokes of a lane are about the work of its group. -/
theorem subject_lane {order : List Nat} {fl : Flight σ}
    (h : (Flight.launch planned s).follow ex order = some fl) (hover : fl.isOver = true) {i : Nat}
    {g : List Nat} (hg : (groupsOf planned)[i]? = some g) :
    (((Flight.launch planned s).strokes ex order).filter fun x => x.1 = i).map
      (fun x => x.2.subject) = workAt planned g := by
  obtain ⟨l, -, hfinished, hstrokes⟩ := lane_over h hover hg
  have hsnd := congrArg (List.map Prod.snd) hfinished
  rw [List.map_map, List.map_map] at hsnd
  have hsubject := congrArg (List.map Stroke.subject) hstrokes
  rw [subject_strokesOf, List.map_map, List.map_map] at hsubject
  exact hsubject.symm.trans (congrArg workOf hsnd)

/-- A stroke is on a resource of the group of its lane, and it is in the reports of the lane. -/
theorem stroke_of_lane {order : List Nat} {fl : Flight σ}
    (h : (Flight.launch planned s).follow ex order = some fl) (hover : fl.isOver = true)
    {x : Nat × Stroke} (hx : x ∈ (Flight.launch planned s).strokes ex order) :
    laneResources planned x.1 x.2.subject.2.resource ∧
      ∃ l ∈ fl.lanes, x.2 ∈ strokesOf (l.finished.map (·.2)) := by
  have hlt : x.1 < (groupsOf planned).length := by
    have howned := (Flight.told_follow h).owned x hx
    rwa [show (Flight.launch planned s).lanes.length = (groupsOf planned).length from
      List.length_map _] at howned
  have hg := List.getElem?_eq_getElem hlt
  have hmine : x ∈ ((Flight.launch planned s).strokes ex order).filter fun y => y.1 = x.1 :=
    List.mem_filter.mpr ⟨hx, decide_eq_true rfl⟩
  obtain ⟨l, hl, -, hstrokes⟩ := lane_over h hover hg
  refine ⟨laneResources_of_mem hg ?_, l, List.mem_of_getElem? hl, ?_⟩
  · rw [← subject_lane h hover hg]
    exact List.mem_map_of_mem hmine
  · rw [hstrokes]
    exact List.mem_map_of_mem hmine

/-- All groups together. -/
theorem done_lanes {order : List Nat} {fl : Flight σ}
    (h : (Flight.launch planned s).follow ex order = some fl) (hover : fl.isOver = true) :
    Done ex planned ⟨((Flight.launch planned s).strokes ex order).map (·.2),
      ⟨fl.reports, fl.host, fl.deeds⟩⟩ := by
  have hsubjects := subject_lanes h hover
  have hfst := nodup_places (schedule_perm planned) hsubjects
  refine ⟨subject_collect (schedule_perm planned) hsubjects, ?_, fun x hx => ?_, ?_⟩
  · rw [List.flatMap_map]
    exact (Flight.told_follow h).deeds
  · obtain ⟨y, hy, rfl⟩ := List.mem_map.mp hx
    obtain ⟨-, l, hl, hmem⟩ := stroke_of_lane h hover hy
    refine mem_collect hfst ?_
    obtain ⟨r, hr, hid⟩ := mem_strokesOf.mp hmem
    obtain ⟨e, he, rfl⟩ := List.mem_map.mp hr
    exact mem_strokesOf.mpr ⟨e.2, List.mem_map_of_mem (List.mem_flatMap.mpr ⟨l, hl, he⟩), hid⟩
  · show ∀ r, workOn r ((List.map Prod.snd _).map Stroke.subject) = _
    rw [List.map_map]
    refine workOn_eq_of_groups (fun x hx => ?_) fun {i g r} hg hi => ?_
    · obtain ⟨y, hy, rfl⟩ := List.mem_map.mp hx
      exact ⟨y.1, (stroke_of_lane h hover hy).1⟩
    · -- a stroke on the resource is one of lane `i`
      rw [← subject_lane h hover hg]
      unfold workOn
      rw [List.filter_map, List.filter_map, List.filter_filter]
      refine congrArg _ (List.filter_congr fun x hx => ?_)
      by_cases hxr : x.2.subject.2.resource = r
      · have hxi : x.1 = i :=
          apart_laneResources planned _ _ r (hxr ▸ (stroke_of_lane h hover hx).1) hi
        simp [hxr, hxi]
      · simp [hxr]

/-- **Whatever the order in which a batch was run**: there is one report for each row, the strokes are
    what was done, and on each resource they are in the order of the batch. -/
theorem done_batchBy {order : BatchOrder} {b : BatchRun σ}
    (h : ex.batchBy planned s order = some b) : Done ex planned b := by
  cases order with
  | inTurn =>
    cases h
    exact done_inTurn ex planned s
  | lanes order =>
    obtain ⟨fl, hfl, hb⟩ := Option.bind_eq_some_iff.mp h
    split at hb
    · rename_i hover
      cases hb
      exact done_lanes hfl hover
    · cases hb

end Batches

end Executor

end Converge
