import Converge.Proofs.Daemon.Passing
import Converge.Proofs.Executor.RowStrokes
import Converge.Proofs.Feature.Plans

/-!
# The audit trail of a full pass

A full pass leaves three stretches of entries. First come those of the rows that were refused, then
those of the actions, in the order in which they were done, and last those of the rows whose plans were
carried out. Nothing is assumed of the host or the policies, and the batch may run in any order.

* `TellsEnd`, `TellsStroke`: what an entry says of the end of the work on a row, and of an action;
* `entries_sortOut`, `entries_settle`, `entries_done`: the three stretches;
* `passAttempts`: the attempts of a pass, one for each change; `Attempt.strokes` are the actions of
  one;
* **`pass_trail`**: the trail says of every attempt how it ended, once, and of every action how it came
  out, once, and the rows that it reports as a success are those that the pass has noted as applied.
-/

namespace Converge

open Executor (BatchOrder BatchRun)

/-! ## 1. What entries say -/

/-- The entry at the end of an attempt. -/
def Daemon.endEntry {σ : Type} (d : Daemon σ) (a : Attempt) : Audit.Entry :=
  d.commitEntry a.delta a.succeeded

/-- The entry says how the attempt on a row has ended. -/
structure TellsEnd (a : Attempt) (e : Audit.Entry) : Prop where
  category_eq : e.category = .configurationChange
  action_eq : e.action = if a.delta.new = none then "remove_row" else "apply_row"
  resource_eq : e.resource = some a.delta.id.full
  outcome_eq : e.outcome = if a.succeeded then .success else .failure

/-- The entry says how an action of a row has come out. -/
structure TellsStroke (x : Stroke) (e : Audit.Entry) : Prop where
  category_eq : e.category = Executor.categoryOf x.report.action
  /-- It is not mistaken for the entry of a row. -/
  category_ne : e.category ≠ .configurationChange
  action_eq : e.action = x.report.action.verb
  resource_eq : e.resource = some x.report.action.resource
  correlationId_eq : e.correlationId = some x.id.full
  outcome_eq : e.outcome = x.report.outcome.audited

section Entries

variable {σ : Type}

theorem tellsEnd_endEntry (d : Daemon σ) (a : Attempt) : TellsEnd a (d.endEntry a) := by
  have hverb : (if a.delta.isRemoval then "remove_row" else "apply_row") =
      if a.delta.new = none then "remove_row" else "apply_row" := by
    simp [RowDelta.isRemoval]
  unfold Daemon.endEntry Daemon.commitEntry
  cases hok : a.succeeded with
  | true => exact ⟨rfl, hverb, rfl, by rw [hok]; rfl⟩
  | false => exact ⟨rfl, hverb, rfl, by rw [hok]; rfl⟩

theorem tellsStroke_entryOn (ex : Executor σ) (x : Stroke) :
    TellsStroke x (ex.entryOn (some x.id.full) x.report) := by
  have hbefore : ∀ a : Action,
      (Executor.entryOf ex.source (some x.id.full) a).category = Executor.categoryOf a ∧
        (Executor.entryOf ex.source (some x.id.full) a).action = a.verb ∧
        (Executor.entryOf ex.source (some x.id.full) a).correlationId = some x.id.full := fun a => by
    cases a <;> exact ⟨rfl, rfl, rfl⟩
  have hkept : ∀ (e : Audit.Entry) (o : ActionOutcome),
      (Executor.entryWithOutcome e o).category = e.category ∧
        (Executor.entryWithOutcome e o).action = e.action ∧
        (Executor.entryWithOutcome e o).correlationId = e.correlationId := fun e o => by
    cases o <;> exact ⟨rfl, rfl, rfl⟩
  obtain ⟨hcategory, haction, hcorrelation⟩ := hbefore x.report.action
  obtain ⟨hcategory', haction', hcorrelation'⟩ :=
    hkept (Executor.entryOf ex.source (some x.id.full) x.report.action) x.report.outcome
  refine ⟨hcategory'.trans hcategory, fun he => ?_, haction'.trans haction,
    ex.resource_entryOn _ x.report, hcorrelation'.trans hcorrelation, ex.outcome_entryOn _ x.report⟩
  have hnot : Executor.categoryOf x.report.action ≠ .configurationChange := by
    cases x.report.action <;> nofun
  exact hnot (hcategory.symm.trans (hcategory'.symm.trans he))

/-- Entries that are made one for each thing tell of the things one by one. -/
theorem forall₂_map_of {α β : Type} {R : α → β → Prop} {f : α → β} (h : ∀ a, R a (f a))
    (xs : List α) : List.Forall₂ R xs (xs.map f) :=
  List.forall₂_map_right_iff.mpr (List.forall₂_same.mpr fun a _ => h a)

end Entries

namespace Daemon

variable {σ : Type} (d : Daemon σ)

/-! ## 2. The three stretches -/

/-- Rows that are refused are reported when they are planned. -/
theorem entries_sortOut (cache : Cache) : ∀ (deltas : List RowDelta) (s : σ),
    (d.sortOut cache deltas s).entries =
      (deltas.filter fun delta => (d.planned? delta).isNone).map (d.commitEntry · false)
  | [], _ => rfl
  | delta :: rest, s => by
    unfold sortOut
    rw [List.filter_cons]
    unfold planned?
    cases hplan : d.registry.plan delta with
    | ok actions =>
      simp only [Ran.entries_andThen, Ran.entries_idle, List.append_nil]
      exact entries_sortOut cache rest s
    | error e =>
      simp only [Ran.entries_andThen, Ran.entries_idle, List.append_nil]
      rw [entries_sortOut cache rest]
      rfl

/-- Rows whose plans were carried out are reported behind the batch. -/
theorem entries_settle : ∀ (rows : List (RowDelta × DeltaReport)) (cache : Cache) (s : σ),
    (d.settle rows cache s).entries = rows.map fun e => d.commitEntry e.1 e.2.allSucceeded
  | [], _, _ => rfl
  | (delta, report) :: rest, cache, s => by
    unfold settle
    simp only [Ran.entries_andThen, Ran.entries_idle, List.append_nil, entries_settle rest]
    rfl

/-- Of a batch there is one entry for each stroke. -/
theorem entries_done {ex : Executor σ} {planned : List PlannedDelta} {b : BatchRun σ}
    (h : ex.Done planned b) :
    b.ran.entries = b.strokes.map fun x => ex.entryOn (some x.id.full) x.report := by
  unfold Ran.entries
  rw [h.deeds_eq, List.filterMap_flatMap, List.map_eq_flatMap]
  exact List.flatMap_congr fun x _ => ex.entry?_deedsOf _ x.report

/-! ## 3. Attempts -/

/-- The attempts of a full pass, whatever the order of its batch. -/
def passAttempts (snapshot : Snapshot) (k : Knowledge) (run : PassRun σ) : List Attempt :=
  (passDeltas k.applied snapshot).map (d.attemptOn run.batch.ran.value)

end Daemon

/-- The actions of an attempt with their outcomes. -/
def Attempt.strokes (a : Attempt) : List Stroke :=
  a.report.elim [] fun r => r.reports.map (Stroke.mk a.delta.id)

namespace Daemon

section Attempts

variable {σ : Type} {d : Daemon σ} {snapshot : Snapshot} {k : Knowledge} {s : σ}
  {order : BatchOrder} {run : PassRun σ}

theorem ids_batch (h : d.passBy snapshot k s order = some run) :
    run.batch.ran.value.map (·.id) =
      ((passDeltas k.applied snapshot).filterMap d.planned?).map (·.delta.id) := by
  rw [← planned_passBy h]
  exact Executor.ids_eq_of_subjects (done_passBy h).subject_eq

theorem nodup_ids_planned (h : d.passBy snapshot k s order = some run) :
    (run.planned.map (·.delta.id)).Nodup := by
  rw [planned_passBy h]
  exact (nodup_passDeltas k.applied snapshot).sublist (d.ids_planned_sublist _)

/-- The batch of a pass in any order is a batch in that order. -/
theorem batch_passBy (h : d.passBy snapshot k s order = some run) :
    ∃ s', d.executor.batchBy run.planned s' order = some run.batch := by
  obtain ⟨batch, hbatch, rfl⟩ := Option.map_eq_some_iff.mp h
  exact ⟨_, hbatch⟩

/-- **A change has a report exactly if its policy has a plan for it**, and the report is about the
    actions of the plan. -/
theorem report_cases (h : d.passBy snapshot k s order = some run) {delta : RowDelta}
    (hdelta : delta ∈ passDeltas k.applied snapshot) :
    (d.planned? delta = none ∧ (d.attemptOn run.batch.ran.value delta).report = none) ∨
    ∃ r, (d.planned? delta).isSome = true ∧
      (d.attemptOn run.batch.ran.value delta).report = some r ∧ r ∈ run.batch.ran.value ∧
      r.id = delta.id ∧ d.registry.plan delta = .ok (r.reports.map (·.action)) := by
  unfold attemptOn
  cases hp : d.planned? delta with
  | none => exact .inl ⟨rfl, rfl⟩
  | some p =>
    obtain ⟨rfl, hplan⟩ := d.planned?_eq_some_iff.mp hp
    have hmem : p ∈ run.planned := by
      rw [planned_passBy h]
      exact List.mem_filterMap.mpr ⟨p.delta, hdelta, hp⟩
    -- the batch has a report about the plan, and the search by name cannot miss it
    have hsubject : p.subject ∈ run.batch.ran.value.map DeltaReport.subject := by
      rw [(done_passBy h).subject_eq]
      exact List.mem_map_of_mem hmem
    obtain ⟨r, hr, he⟩ := List.mem_map.mp hsubject
    have hid : r.id = p.delta.id := congrArg Prod.fst he
    have hactions : r.reports.map (·.action) = p.actions := congrArg Prod.snd he
    have hnodup : (run.batch.ran.value.map (·.id)).Nodup := by
      rw [Executor.ids_eq_of_subjects (done_passBy h).subject_eq]
      exact nodup_ids_planned h
    have hfound : (run.batch.ran.value.find? fun x => x.id = p.delta.id) = some r := by
      rw [← List.head?_filter, ← hid, filter_id_eq hnodup hr]
      rfl
    exact .inr ⟨r, rfl, hfound, hr, hid, hactions ▸ hplan⟩

/-- No key has two attempts. -/
theorem nodup_passAttempts (d : Daemon σ) (snapshot : Snapshot) (k : Knowledge) (run : PassRun σ) :
    ((d.passAttempts snapshot k run).map (·.delta.id)).Nodup := by
  unfold passAttempts
  rw [ids_attemptOn]
  exact nodup_passDeltas k.applied snapshot

/-- The rows of the batch with their reports are the attempts that have a report. -/
theorem zip_batch (h : d.passBy snapshot k s order = some run) :
    (run.planned.map (·.delta)).zip run.batch.ran.value =
      reported (d.passAttempts snapshot k run) := by
  rw [planned_passBy h]
  exact d.zip_reported (nodup_passDeltas k.applied snapshot) (ids_batch h)

/-- What is noted as applied are the attempts that succeeded. -/
theorem noteAll_eq (cache : Cache) (attempts : List Attempt) :
    noteAll cache attempts =
      (attempts.filter Attempt.succeeded).foldl (fun c a => c.record a.delta.id a.delta.new) cache := by
  rw [List.foldl_filter]
  rfl

theorem applied_passBy (h : d.passBy snapshot k s order = some run) :
    run.done.value.1.applied = noteAll k.applied (d.passAttempts snapshot k run) := by
  rw [← foldl_note_reported, ← zip_batch h]
  obtain ⟨batch, -, rfl⟩ := Option.map_eq_some_iff.mp h
  show (d.settle _ _ _).value.cache = _
  rw [settle_eq]
  rfl

/-- A report of the batch is about a change that has a plan. -/
theorem exists_delta_of_report (h : d.passBy snapshot k s order = some run) {r : DeltaReport}
    (hr : r ∈ run.batch.ran.value) :
    ∃ delta ∈ passDeltas k.applied snapshot, (d.planned? delta).isSome = true ∧ delta.id = r.id := by
  have hmem : r.id ∈ ((passDeltas k.applied snapshot).filterMap d.planned?).map (·.delta.id) := by
    rw [← ids_batch h]
    exact List.mem_map_of_mem hr
  obtain ⟨p, hp, hid⟩ := List.mem_map.mp hmem
  obtain ⟨delta, hdelta, hplanned⟩ := List.mem_filterMap.mp hp
  refine ⟨delta, hdelta, by rw [hplanned]; rfl, ?_⟩
  rw [← hid, (d.planned?_eq_some_iff.mp hplanned).1]

/-- The strokes on the row of an attempt are its own. -/
theorem strokesOn_passBy (h : d.passBy snapshot k s order = some run) {a : Attempt}
    (ha : a ∈ d.passAttempts snapshot k run) :
    strokesOn a.delta.id run.batch.strokes = a.strokes := by
  obtain ⟨delta, hdelta, rfl⟩ := List.mem_map.mp ha
  obtain ⟨s', hbatch⟩ := batch_passBy h
  unfold Attempt.strokes
  rcases report_cases h hdelta with ⟨hp, hnone⟩ | ⟨r, -, hr, hmem, hid, -⟩
  · -- a change that was refused is not in the batch
    rw [Executor.strokesOn_batchBy hbatch (nodup_ids_planned h), hnone]
    refine strokesOn_eq_nil fun r hr he => ?_
    obtain ⟨other, hother, hplanned, hid⟩ := exists_delta_of_report h hr
    obtain rfl : other = delta :=
      List.inj_on_of_nodup_map (nodup_passDeltas k.applied snapshot) hother hdelta (hid.trans he)
    rw [hp] at hplanned
    cases hplanned
  · rw [hr]
    show strokesOn delta.id run.batch.strokes = r.reports.map (Stroke.mk delta.id)
    rw [← hid]
    exact Executor.strokesOn_report hbatch (nodup_ids_planned h) hmem

/-- Every stroke is one of an attempt. -/
theorem exists_attempt_of_stroke (h : d.passBy snapshot k s order = some run) {x : Stroke}
    (hx : x ∈ run.batch.strokes) : ∃ a ∈ d.passAttempts snapshot k run, x ∈ a.strokes := by
  obtain ⟨r, hr, hid, -⟩ := mem_strokesOf.mp ((done_passBy h).reported x hx)
  obtain ⟨delta, hdelta, -, hdeltaid⟩ := exists_delta_of_report h hr
  have ha : d.attemptOn run.batch.ran.value delta ∈ d.passAttempts snapshot k run :=
    List.mem_map_of_mem hdelta
  refine ⟨_, ha, ?_⟩
  rw [← strokesOn_passBy h ha]
  exact List.mem_filter.mpr ⟨hx, decide_eq_true (hid.symm.trans hdeltaid.symm)⟩

/-! ## 4. The trail -/

/-- The attempts without a report are those of the changes that were refused. -/
theorem refused_passAttempts (h : d.passBy snapshot k s order = some run) :
    ((d.passAttempts snapshot k run).filter fun a => a.report.isNone).map d.endEntry =
      ((passDeltas k.applied snapshot).filter fun delta => (d.planned? delta).isNone).map
        (d.commitEntry · false) := by
  have hsame : (passDeltas k.applied snapshot).filter
      ((fun a : Attempt => a.report.isNone) ∘ d.attemptOn run.batch.ran.value) =
        (passDeltas k.applied snapshot).filter fun delta => (d.planned? delta).isNone := by
    refine List.filter_congr fun delta hdelta => ?_
    rcases report_cases h hdelta with ⟨hp, hnone⟩ | ⟨r, hp, hr, -⟩
    · simp [hp, hnone]
    · simp [← Option.not_isSome, hp, hr]
  unfold passAttempts
  rw [List.filter_map, List.map_map, hsame]
  refine List.map_congr_left fun delta hdelta => ?_
  have hp : d.planned? delta = none := by simpa using (List.mem_filter.mp hdelta).2
  show d.commitEntry delta (d.attemptOn run.batch.ran.value delta).succeeded = _
  unfold attemptOn Attempt.succeeded
  rw [hp]
  rfl

/-- The ends of the attempts that have a report. -/
theorem map_reported (d : Daemon σ) (attempts : List Attempt) :
    (reported attempts).map (fun e => d.commitEntry e.1 e.2.allSucceeded) =
      (attempts.filter fun a => a.report.isSome).map d.endEntry := by
  induction attempts with
  | nil => rfl
  | cons a rest ih =>
    obtain ⟨delta, _ | r⟩ := a
    · exact ih
    · exact congrArg (d.commitEntry delta r.allSucceeded :: ·) ih

/-- **The entries of a pass**: the ends of the attempts that were refused, the strokes, and the ends of
    the attempts that were carried out. -/
theorem entries_passBy (h : d.passBy snapshot k s order = some run) :
    run.done.entries =
      ((d.passAttempts snapshot k run).filter fun a => a.report.isNone).map d.endEntry ++
        run.batch.strokes.map (fun x => d.executor.entryOn (some x.id.full) x.report) ++
        ((d.passAttempts snapshot k run).filter fun a => a.report.isSome).map d.endEntry := by
  rw [refused_passAttempts h, ← entries_done (done_passBy h), ← map_reported, ← zip_batch h]
  obtain ⟨batch, -, rfl⟩ := Option.map_eq_some_iff.mp h
  unfold passRun endPass
  simp only [Ran.entries_andThen, Ran.entries_idle, List.append_nil, entries_settle,
    List.append_assoc]
  rw [sortedFor, entries_sortOut]

/-- What the trail of a full pass says of its attempts. -/
structure PassTrail (d : Daemon σ) (snapshot : Snapshot) (k : Knowledge) (run : PassRun σ)
    (attempts : List Attempt) : Prop where
  /-- There is one attempt for each change, in the order of planning. -/
  deltas_eq : attempts.map (·.delta) = passDeltas k.applied snapshot
  once : (attempts.map (·.delta.id)).Nodup
  /-- An attempt has no report exactly if its policy refused it. -/
  refused_iff : ∀ a ∈ attempts, a.report = none ↔ ∃ e, d.registry.plan a.delta = .error e
  /-- Any other attempt has a report on all actions of its plan, in order. -/
  planned : ∀ a ∈ attempts, ∀ r, a.report = some r →
    d.registry.plan a.delta = .ok (r.reports.map (·.action))
  /-- The attempts that succeeded are noted as applied, and no others. -/
  noted : run.done.value.1.applied =
    (attempts.filter Attempt.succeeded).foldl (fun c a => c.record a.delta.id a.delta.new) k.applied
  applied : ∀ a ∈ attempts, run.done.value.1.applied.get? a.delta.id =
    if a.succeeded then a.delta.new else k.applied.get? a.delta.id
  /-- The actions that were done, with their outcomes, are those of the attempts: for each of them its
      own, in the order of its report, and there are no others. -/
  strokes_eq : ∀ a ∈ attempts, strokesOn a.delta.id run.batch.strokes = a.strokes
  owned : ∀ x ∈ run.batch.strokes, ∃ a ∈ attempts, x ∈ a.strokes
  /-- The entries tell of the attempts that were refused, of the actions, and of the other attempts,
      one by one. -/
  entries : ∃ refused acted ended, run.done.entries = refused ++ acted ++ ended ∧
    List.Forall₂ TellsEnd (attempts.filter fun a => a.report.isNone) refused ∧
    List.Forall₂ TellsStroke run.batch.strokes acted ∧
    List.Forall₂ TellsEnd (attempts.filter fun a => a.report.isSome) ended

/-- **The trail of a full pass**, for every cache, snapshot, policy and host, and every order in which
    the groups of the batch can run. -/
theorem pass_trail (h : d.passBy snapshot k s order = some run) :
    d.PassTrail snapshot k run (d.passAttempts snapshot k run) where
  deltas_eq := d.deltas_attemptOn run.batch.ran.value (passDeltas k.applied snapshot)
  once := d.nodup_passAttempts snapshot k run
  refused_iff a ha := by
    obtain ⟨delta, hdelta, rfl⟩ := List.mem_map.mp ha
    rcases report_cases h hdelta with ⟨hp, hnone⟩ | ⟨r, -, hr, -, -, hplan⟩
    · exact iff_of_true hnone (d.planned?_eq_none_iff.mp hp)
    · refine iff_of_false (by simp [hr]) fun ⟨e, he⟩ => ?_
      rw [show d.registry.plan delta = .error e from he] at hplan
      cases hplan
  planned a ha r hr := by
    obtain ⟨delta, hdelta, rfl⟩ := List.mem_map.mp ha
    rcases report_cases h hdelta with ⟨-, hnone⟩ | ⟨r', -, hr', -, -, hplan⟩
    · rw [hnone] at hr
      cases hr
    · obtain rfl : r' = r := Option.some.inj (hr'.symm.trans hr)
      exact hplan
  noted := (applied_passBy h).trans (noteAll_eq _ _)
  applied a ha := by
    rw [applied_passBy h]
    exact get?_noteAll (d.nodup_passAttempts snapshot k run) a ha
  strokes_eq _ ha := strokesOn_passBy h ha
  owned _ hx := exists_attempt_of_stroke h hx
  entries := ⟨_, _, _, entries_passBy h, forall₂_map_of (tellsEnd_endEntry d) _,
    forall₂_map_of (tellsStroke_entryOn d.executor) _,
    forall₂_map_of (tellsEnd_endEntry d) _⟩

end Attempts

end Daemon

/-! ## Features of which one cannot be started -/

section Bench

/-- The daemon of the features, on a host where no unit can be started. -/
def stalledFeatures : Daemon Unit :=
  { twoChipped with executor := ⟨Daemon.cannotStart, {}, FeatureConfig.daemonName⟩ }

/-- Three features were applied. -/
def threeApplied : Knowledge :=
  ⟨.tracking [FeatureConfig.table], .ofList [
    (featureId "dhcp_relay", .ofList [("state", "enabled")]),
    (featureId "ntp", .ofList [("state", "disabled")]),
    (featureId "snmp", .ofList [("state", "enabled")])]⟩

/-- One of them is to stop, one to start and one is gone, and a fourth has a state that there is not. -/
def threeChanged : Snapshot :=
  ⟨.ofList [(FeatureConfig.table, .ofList [
    ("dhcp_relay", .ofList [("state", "disabled")]), ("lldp", .ofList [("state", "bogus")]),
    ("ntp", .ofList [("state", "enabled")])])]⟩

/-- The three chains take turns, action by action. -/
def takingTurns : BatchOrder := .lanes ((List.replicate 5 [0, 1, 2]).flatten)

/-- One row is refused, one fails, and two are applied; there are nine actions between. -/
theorem pass_trail_stalled :
    ∃ run, stalledFeatures.passBy threeChanged threeApplied () takingTurns = some run ∧
      run.done.value.2 = ⟨4, 2, 2⟩ ∧
      run.batch.strokes.map (·.report.action.verb) =
        ["stop", "unmask", "stop", "disable", "enable", "disable", "mask", "start", "mask"] ∧
      stalledFeatures.PassTrail threeChanged threeApplied run
        (stalledFeatures.passAttempts threeChanged threeApplied run) := by
  have hfacts : (stalledFeatures.passBy threeChanged threeApplied () takingTurns).map
      (fun run => (run.done.value.2, run.batch.strokes.map (·.report.action.verb))) =
        some (⟨4, 2, 2⟩,
          ["stop", "unmask", "stop", "disable", "enable", "disable", "mask", "start", "mask"]) := by
    decide +kernel
  obtain ⟨run, hrun, hpair⟩ := Option.map_eq_some_iff.mp hfacts
  exact ⟨run, hrun, congrArg Prod.fst hpair, congrArg Prod.snd hpair, Daemon.pass_trail hrun⟩

end Bench

end Converge
