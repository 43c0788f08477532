import Converge.Daemon.Pass
import Converge.Proofs.Executor.Reports

/-!
# What a daemon attempts

An `Attempt` is a change of a row that a daemon worked on, with the report on it if its policy had a
plan. `Daemon.attempts` lists the attempts of a pass; the report of a change is looked up by the name
of its row, not by its place.

* `settle_eq`: ending the work on rows folds `note` over them and counts them;
* **`fullPass_eq`**: a full pass notes its attempts in order and counts those that succeeded and
  those that did not, provided that no row is named twice;
* `exists_report`: whatever was planned has a report, made by the chain of the plan.
-/

namespace Converge

/-! ## 1. Attempts -/

/-- A change of a row that was worked on. -/
structure Attempt where
  delta : RowDelta
  /-- The report, if the policy had a plan. -/
  report : Option DeltaReport

/-- The policy had a plan, and every action succeeded. -/
def Attempt.succeeded (a : Attempt) : Bool := a.report.elim false DeltaReport.allSucceeded

/-- The row that is known of the key after the attempt. -/
def Attempt.known (a : Attempt) : Option Row := if a.succeeded then a.delta.new else a.delta.old

namespace Daemon

variable {σ : Type} (d : Daemon σ)

/-- A change with its plan, if its policy has one. -/
def planned? (delta : RowDelta) : Option PlannedDelta :=
  match d.registry.plan delta with
  | .ok actions => some ⟨delta, actions⟩
  | .error _ => none

theorem planned?_eq_some_iff {delta : RowDelta} {p : PlannedDelta} :
    d.planned? delta = some p ↔ p.delta = delta ∧ d.registry.plan delta = .ok p.actions := by
  unfold planned?
  obtain ⟨delta', actions⟩ := p
  cases d.registry.plan delta with
  | error e => simp
  | ok as => simp [eq_comm]

theorem planned?_eq_none_iff {delta : RowDelta} :
    d.planned? delta = none ↔ ∃ e, d.registry.plan delta = .error e := by
  unfold planned?
  cases d.registry.plan delta with
  | error e => simp
  | ok actions => simp

/-- The reports of the batch of a pass. -/
def passReports (cache : Cache) (deltas : List RowDelta) (s : σ) : List DeltaReport :=
  let sorted := d.sortOut cache deltas s
  (d.executor.executeBatch sorted.value.planned sorted.host).value

/-- The attempt on a change, among the reports of a batch. -/
def attemptOn (reports : List DeltaReport) (delta : RowDelta) : Attempt :=
  ⟨delta, (d.planned? delta).bind fun p => reports.find? fun r => r.id = p.delta.id⟩

/-- The attempts of a pass over changes, in order. -/
def attempts (cache : Cache) (deltas : List RowDelta) (s : σ) : List Attempt :=
  deltas.map (d.attemptOn (d.passReports cache deltas s))

/-- There is one attempt on each change, whatever was reported. -/
theorem deltas_attemptOn (reports : List DeltaReport) (deltas : List RowDelta) :
    (deltas.map (d.attemptOn reports)).map (·.delta) = deltas := by
  rw [List.map_map]
  exact List.map_id deltas

theorem ids_attemptOn (reports : List DeltaReport) (deltas : List RowDelta) :
    (deltas.map (d.attemptOn reports)).map (·.delta.id) = deltas.map (·.id) := by
  rw [List.map_map]
  rfl

theorem deltas_attempts (cache : Cache) (deltas : List RowDelta) (s : σ) :
    (d.attempts cache deltas s).map (·.delta) = deltas :=
  d.deltas_attemptOn _ deltas

theorem ids_attempts (cache : Cache) (deltas : List RowDelta) (s : σ) :
    (d.attempts cache deltas s).map (·.delta.id) = deltas.map (·.id) :=
  d.ids_attemptOn _ deltas

theorem delta_mem {cache : Cache} {deltas : List RowDelta} {s : σ} {a : Attempt}
    (ha : a ∈ d.attempts cache deltas s) : a.delta ∈ deltas := by
  rw [← d.deltas_attempts cache deltas s]
  exact List.mem_map_of_mem ha

/-! ## 2. Planning -/

theorem planned_sortOut (cache : Cache) : ∀ (deltas : List RowDelta) (s : σ),
    (d.sortOut cache deltas s).value.planned = deltas.filterMap d.planned?
  | [], _ => rfl
  | delta :: rest, s => by
    unfold sortOut
    rw [List.filterMap_cons]
    unfold planned?
    cases d.registry.plan delta with
    | ok actions => exact congrArg _ (planned_sortOut cache rest s)
    | error e => exact planned_sortOut cache rest _

theorem refused_sortOut (cache : Cache) : ∀ (deltas : List RowDelta) (s : σ),
    (d.sortOut cache deltas s).value.refused =
      deltas.countP fun delta => (d.planned? delta).isNone
  | [], _ => rfl
  | delta :: rest, s => by
    unfold sortOut
    rw [List.countP_cons]
    unfold planned?
    cases d.registry.plan delta with
    | ok actions => exact refused_sortOut cache rest s
    | error e => exact congrArg (· + 1) (refused_sortOut cache rest _)

/-- The names of the planned rows are among the names of the rows, in order. -/
theorem ids_planned_sublist (deltas : List RowDelta) :
    ((deltas.filterMap d.planned?).map fun p => p.delta.id).Sublist (deltas.map (·.id)) := by
  induction deltas with
  | nil => exact .slnil
  | cons delta rest ih =>
    rw [List.filterMap_cons]
    cases hp : d.planned? delta with
    | none => exact ih.cons _
    | some p =>
      rw [List.map_cons, List.map_cons, (d.planned?_eq_some_iff.mp hp).1]
      exact ih.cons_cons _

/-! ## 3. Ending the work -/

/-- The applied rows after attempts. -/
def noteAll (cache : Cache) (attempts : List Attempt) : Cache :=
  attempts.foldl (fun c a => note c a.delta a.succeeded) cache

/-- **The work on rows is ended by noting and counting them.** -/
theorem settle_eq : ∀ (rows : List (RowDelta × DeltaReport)) (cache : Cache) (s : σ),
    (d.settle rows cache s).value =
      ⟨rows.foldl (fun c e => note c e.1 e.2.allSucceeded) cache,
        rows.countP fun e => e.2.allSucceeded, rows.countP fun e => !e.2.allSucceeded⟩
  | [], _, _ => rfl
  | (delta, report) :: rest, cache, s => by
    have ih := settle_eq rest (note cache delta report.allSucceeded)
      (d.publish delta report.allSucceeded s)
    unfold settle
    simp only [Ran.andThen, Ran.idle, commit, ih, List.foldl_cons, List.countP_cons]
    cases report.allSucceeded <;> rfl

/-- The attempts that have a report, as pairs of change and report. -/
def reported (attempts : List Attempt) : List (RowDelta × DeltaReport) :=
  attempts.filterMap fun a => a.report.map (a.delta, ·)

/-- An attempt without a report leaves no note. -/
theorem foldl_note_reported (cache : Cache) (attempts : List Attempt) :
    (reported attempts).foldl (fun c e => note c e.1 e.2.allSucceeded) cache =
      noteAll cache attempts := by
  unfold reported noteAll
  rw [List.foldl_filterMap]
  congr 1
  funext c a
  obtain ⟨delta, report⟩ := a
  cases report <;> rfl

theorem countP_reported (attempts : List Attempt) :
    (reported attempts).countP (fun e => e.2.allSucceeded) =
      attempts.countP Attempt.succeeded := by
  unfold reported
  rw [List.countP_filterMap]
  congr 1
  funext a
  obtain ⟨delta, report⟩ := a
  cases report <;> rfl

/-- Reports that are about the planned rows one by one are found by the names of the rows. -/
theorem zip_reports : ∀ {planned : List PlannedDelta} {reports : List DeltaReport},
    reports.map (·.id) = planned.map (·.delta.id) → (reports.map (·.id)).Nodup →
      (planned.map (·.delta)).zip reports =
        planned.filterMap fun p => (reports.find? fun r => r.id = p.delta.id).map (p.delta, ·)
  | [], [], _, _ => rfl
  | p :: planned, r :: reports, h, hnodup => by
    obtain ⟨hid, hrest⟩ : r.id = p.delta.id ∧ _ := List.cons.inj h
    obtain ⟨hnew, hnodup⟩ : r.id ∉ _ ∧ _ := List.nodup_cons.mp hnodup
    have hself : ((r :: reports).find? fun r => r.id = p.delta.id) = some r :=
      List.find?_cons_of_pos (decide_eq_true hid)
    have htail : ∀ q ∈ planned, ((r :: reports).find? fun r => r.id = q.delta.id) =
        reports.find? fun r => r.id = q.delta.id := by
      intro q hq
      refine List.find?_cons_of_neg fun he => hnew ?_
      rw [of_decide_eq_true he, hrest]
      exact List.mem_map_of_mem hq
    rw [List.map_cons, List.zip_cons_cons, List.filterMap_cons, hself, Option.map_some,
      zip_reports hrest hnodup]
    exact congrArg _ (List.filterMap_congr fun q hq => by rw [htail q hq])

/-! ## 4. The full pass -/

section Pass

variable {cache : Cache} {deltas : List RowDelta} {s : σ}

theorem ids_passReports :
    (d.passReports cache deltas s).map (·.id) =
      (deltas.filterMap d.planned?).map (·.delta.id) := by
  unfold passReports
  rw [Executor.ids_executeBatch, planned_sortOut]

/-- The rows of a batch with their reports are the attempts that have a report. -/
theorem zip_reported {reports : List DeltaReport} (hids : (deltas.map (·.id)).Nodup)
    (hreports : reports.map (·.id) = (deltas.filterMap d.planned?).map (·.delta.id)) :
    ((deltas.filterMap d.planned?).map (·.delta)).zip reports =
      reported (deltas.map (d.attemptOn reports)) := by
  rw [zip_reports hreports (hreports ▸ hids.sublist (d.ids_planned_sublist deltas)),
    List.filterMap_filterMap]
  unfold reported
  rw [List.filterMap_map]
  refine List.filterMap_congr fun delta _ => ?_
  show _ = (d.attemptOn reports delta).report.map (delta, ·)
  unfold attemptOn
  cases hp : d.planned? delta with
  | none => rfl
  | some p =>
    rw [Option.bind_some, Option.bind_some, (d.planned?_eq_some_iff.mp hp).1]

/-- So it is with the batch of a pass. -/
theorem zip_passReports (hids : (deltas.map (·.id)).Nodup) :
    ((deltas.filterMap d.planned?).map (·.delta)).zip (d.passReports cache deltas s) =
      reported (d.attempts cache deltas s) :=
  d.zip_reported hids d.ids_passReports

/-- A change that its policy refuses has no report. -/
theorem report_of_refused {a : Attempt} (ha : a ∈ d.attempts cache deltas s) {e : Error}
    (hplan : d.registry.plan a.delta = .error e) : a.report = none := by
  obtain ⟨delta, -, rfl⟩ := List.mem_map.mp ha
  have hp : d.planned? delta = none := by
    unfold planned?
    rw [show d.registry.plan delta = .error e from hplan]
  show ((d.planned? delta).bind _) = none
  rw [hp]
  rfl

/-- An accepted change has a report, made by the chain of its plan. -/
theorem exists_report (hids : (deltas.map (·.id)).Nodup) {a : Attempt}
    (ha : a ∈ d.attempts cache deltas s) {actions : List Action}
    (hplan : d.registry.plan a.delta = .ok actions) :
    ∃ s', a.report = some (d.executor.runDelta ⟨a.delta, actions⟩ s').value := by
  obtain ⟨delta, hdelta, rfl⟩ := List.mem_map.mp ha
  have hp : d.planned? delta = some ⟨delta, actions⟩ := d.planned?_eq_some_iff.mpr ⟨rfl, hplan⟩
  have hmem : ⟨delta, actions⟩ ∈ deltas.filterMap d.planned? :=
    List.mem_filterMap.mpr ⟨delta, hdelta, hp⟩
  have hnodup : ((deltas.filterMap d.planned?).map (·.delta.id)).Nodup :=
    hids.sublist (d.ids_planned_sublist deltas)
  have hfound : ((d.passReports cache deltas s).find? fun r => r.id = delta.id).isSome := by
    have hid : delta.id ∈ (d.passReports cache deltas s).map (·.id) := by
      rw [ids_passReports]
      exact List.mem_map_of_mem hmem
    obtain ⟨r, hr, he⟩ := List.mem_map.mp hid
    exact List.find?_isSome.mpr ⟨r, hr, decide_eq_true he⟩
  -- the report that is found by name was made by a plan of the batch, and names are unique there
  obtain ⟨r, hr⟩ := Option.isSome_iff_exists.mp hfound
  obtain ⟨q, hq, s', rfl⟩ :=
    d.executor.exists_run_of_mem_executeBatch (List.mem_of_find?_eq_some hr)
  rw [planned_sortOut] at hq
  have hid : (d.executor.runDelta q s').value.id = delta.id := by
    simpa using List.find?_some hr
  obtain rfl : q = ⟨delta, actions⟩ := List.inj_on_of_nodup_map hnodup hq hmem hid
  refine ⟨s', ?_⟩
  show ((d.planned? delta).bind _) = _
  rw [hp]
  exact hr

/-- A change that was refused and a change whose actions failed both count as failed. -/
theorem refused_add_failed (hids : (deltas.map (·.id)).Nodup) :
    (d.sortOut cache deltas s).value.refused +
        (reported (d.attempts cache deltas s)).countP (fun e => !e.2.allSucceeded) =
      (d.attempts cache deltas s).countP fun a => !a.succeeded := by
  -- both sides are what is left of all changes without those that succeeded
  have hall : (d.sortOut cache deltas s).value.refused +
      (reported (d.attempts cache deltas s)).length = (d.attempts cache deltas s).length := by
    have hreports : (d.passReports cache deltas s).length = (deltas.filterMap d.planned?).length := by
      rw [← List.length_map (·.id), ids_passReports, List.length_map]
    have hplanned := List.length_eq_countP_add_countP (fun delta => (d.planned? delta).isNone)
      (l := deltas)
    rw [← zip_passReports d hids, refused_sortOut, List.length_zip, List.length_map, hreports,
      Nat.min_self, List.length_filterMap_eq_countP, attempts, List.length_map, hplanned]
    congr 2
    funext delta
    cases d.planned? delta <;> rfl
  have hpairs := List.length_eq_countP_add_countP (fun e : RowDelta × DeltaReport =>
    e.2.allSucceeded) (l := reported (d.attempts cache deltas s))
  have hattempts := List.length_eq_countP_add_countP Attempt.succeeded
    (l := d.attempts cache deltas s)
  rw [countP_reported] at hpairs
  simp only [Bool.not_eq_true, Bool.decide_eq_false] at hpairs hattempts
  omega

end Pass

/-- **A full pass notes its attempts in order, and counts those that succeeded and those that did
    not.** -/
theorem fullPass_eq {snapshot : Snapshot} {k : Knowledge} (s : σ)
    (hids : ((passDeltas k.applied snapshot).map (·.id)).Nodup) :
    let attempts := d.attempts k.applied (passDeltas k.applied snapshot) s
    (d.fullPass snapshot k s).value =
      (⟨snapshot, noteAll k.applied attempts⟩,
        ⟨attempts.length, attempts.countP Attempt.succeeded,
          attempts.countP fun a => !a.succeeded⟩) := by
  intro attempts
  have hpairs : (((d.sortOut k.applied (passDeltas k.applied snapshot) s).value.planned.map
      (·.delta)).zip (d.passReports k.applied (passDeltas k.applied snapshot) s)) =
        reported attempts := by
    rw [planned_sortOut]
    exact d.zip_passReports hids
  have hlength : (passDeltas k.applied snapshot).length = attempts.length :=
    (List.length_map _).symm
  have hfailed : (d.sortOut k.applied (passDeltas k.applied snapshot) s).value.refused +
      (reported attempts).countP (fun e => !e.2.allSucceeded) =
        attempts.countP fun a => !a.succeeded := d.refused_add_failed hids
  show (Knowledge.mk snapshot (d.settle (List.zip _ (d.passReports _ _ s)) _ _).value.cache,
    PassSummary.mk _ (d.settle (List.zip _ (d.passReports _ _ s)) _ _).value.applied
      (_ + (d.settle (List.zip _ (d.passReports _ _ s)) _ _).value.failed)) = _
  rw [settle_eq, hpairs]
  simp only [foldl_note_reported, countP_reported, hlength]
  exact congrArg _ (congrArg _ hfailed)

end Daemon

end Converge
