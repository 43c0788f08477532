import Converge.Proofs.Daemon.Entries
import Converge.Proofs.Executor.Strokes

/-!
# Full passes in any order

A full pass of which the batch may be run in any order. It is the full pass itself if the groups take
turns (`passBy_inTurn`).

* `PassRun` is a pass with its batch: the rows with their plans, the strokes in the order in which
  they were done, and the reports;
* `clean_passBy`: in a pass without a failure every change has a plan, and every stroke succeeded;
* **`workOn_passBy`**: on each resource, the rows of the snapshot come first, whatever the order.
-/

namespace Converge

open Executor (BatchOrder BatchRun)

/-- A full pass, with its batch. -/
structure PassRun (σ : Type) where
  planned : List PlannedDelta
  batch : BatchRun σ
  done : Ran σ (Knowledge × PassSummary)

namespace Daemon

variable {σ : Type}

/-- The end of a full pass, given what its batch has come to. -/
def endPass (d : Daemon σ) (snapshot : Snapshot) (k : Knowledge) (sorted : Sorted)
    (reports : List DeltaReport) (s : σ) : Ran σ (Knowledge × PassSummary) :=
  (d.settle ((sorted.planned.map (·.delta)).zip reports) k.applied s).andThen fun settled s =>
    .idle (⟨snapshot, settled.cache⟩,
      ⟨(passDeltas k.applied snapshot).length, settled.applied,
        sorted.refused + settled.failed⟩) s

/-- A full pass, given how its rows were sorted out and what its batch was. -/
def passRun (d : Daemon σ) (snapshot : Snapshot) (k : Knowledge) (sorted : Ran σ Sorted)
    (batch : BatchRun σ) : PassRun σ :=
  ⟨sorted.value.planned, batch, sorted.andThen fun sorted _ =>
    batch.ran.andThen fun reports s => d.endPass snapshot k sorted reports s⟩

/-- The rows of a full pass over a snapshot, sorted out. -/
def sortedFor (d : Daemon σ) (snapshot : Snapshot) (k : Knowledge) (s : σ) : Ran σ Sorted :=
  d.sortOut k.applied (passDeltas k.applied snapshot) s

/-- **A full pass over a snapshot**, the batch being run in the given order if that can be. -/
def passBy (d : Daemon σ) (snapshot : Snapshot) (k : Knowledge) (s : σ) (order : BatchOrder) :
    Option (PassRun σ) :=
  (d.executor.batchBy (d.sortedFor snapshot k s).value.planned (d.sortedFor snapshot k s).host
    order).map (d.passRun snapshot k (d.sortedFor snapshot k s))

variable {d : Daemon σ} {snapshot : Snapshot} {k : Knowledge} {s : σ} {order : BatchOrder}
  {run : PassRun σ}

/-- If the groups take turns it is the full pass itself. -/
theorem passBy_inTurn (d : Daemon σ) (snapshot : Snapshot) (k : Knowledge) (s : σ) :
    ∃ run, d.passBy snapshot k s .inTurn = some run ∧ run.done = d.fullPass snapshot k s :=
  ⟨_, rfl, rfl⟩

/-! ## 1. The batch -/

/-- The batch is that of the changes that have a plan. -/
theorem planned_passBy (h : d.passBy snapshot k s order = some run) :
    run.planned = (passDeltas k.applied snapshot).filterMap d.planned? := by
  obtain ⟨batch, -, rfl⟩ := Option.map_eq_some_iff.mp h
  exact d.planned_sortOut k.applied _ s

theorem done_passBy (h : d.passBy snapshot k s order = some run) :
    d.executor.Done run.planned run.batch := by
  obtain ⟨batch, hbatch, rfl⟩ := Option.map_eq_some_iff.mp h
  exact Executor.done_batchBy hbatch

/-- The number of failures: the changes that were refused, and those of which a stroke failed. -/
theorem failed_passBy (h : d.passBy snapshot k s order = some run) :
    run.done.value.2.failed =
      ((passDeltas k.applied snapshot).countP fun delta => (d.planned? delta).isNone) +
        ((run.planned.map (·.delta)).zip run.batch.ran.value).countP
          fun e => !e.2.allSucceeded := by
  obtain ⟨batch, -, rfl⟩ := Option.map_eq_some_iff.mp h
  show (d.sortOut _ _ s).value.refused + (d.settle _ _ _).value.failed = _
  rw [refused_sortOut, settle_eq]
  rfl

/-! ## 2. Passes without a failure -/

/-- **In a pass without a failure every change has a plan, and every stroke succeeded.** -/
theorem clean_passBy (h : d.passBy snapshot k s order = some run)
    (hclean : run.done.value.2.failed = 0) :
    run.planned.map (·.delta) = passDeltas k.applied snapshot ∧
    ∀ x ∈ run.batch.strokes, x.report.outcome = .success := by
  have hdone := done_passBy h
  rw [failed_passBy h, Nat.add_eq_zero_iff, List.countP_eq_zero, List.countP_eq_zero] at hclean
  obtain ⟨hplanned, hreports⟩ := hclean
  constructor
  · rw [planned_passBy h]
    have hall : ∀ deltas : List RowDelta, (∀ delta ∈ deltas, ¬ (d.planned? delta).isNone = true) →
        (deltas.filterMap d.planned?).map (·.delta) = deltas := by
      intro deltas hdeltas
      induction deltas with
      | nil => rfl
      | cons delta rest ih =>
        have hdelta := hdeltas delta List.mem_cons_self
        cases hp : d.planned? delta with
        | none => simp [hp] at hdelta
        | some p =>
          rw [List.filterMap_cons_some hp, List.map_cons, (d.planned?_eq_some_iff.mp hp).1,
            ih fun b hb => hdeltas b (List.mem_cons_of_mem _ hb)]
    exact hall _ hplanned
  · intro x hx
    obtain ⟨r, hr, -, hxr⟩ := mem_strokesOf.mp (hdone.reported x hx)
    -- the report stands beside the change of its row
    have hlength : run.batch.ran.value.length = run.planned.length := by
      simpa using congrArg List.length hdone.subject_eq
    have hsnd : ((run.planned.map (·.delta)).zip run.batch.ran.value).map (·.2) =
        run.batch.ran.value := List.map_snd_zip (by simp [hlength])
    rw [← hsnd] at hr
    obtain ⟨e, he, rfl⟩ := List.mem_map.mp hr
    have hok : e.2.allSucceeded = true := by simpa using hreports e he
    exact (e.2.allSucceeded_iff.mp hok) x.report hxr

/-! ## 3. Rows, and keys that are gone -/

/-- The change that a full pass makes of a row of the snapshot. -/
def rowDelta (cache : Cache) (x : RowKey × Row) : RowDelta := ⟨x.1, cache.get? x.1, some x.2⟩

/-- The rows of the snapshot, as a full pass works on them. -/
def rowDeltas (cache : Cache) (snapshot : Snapshot) : List RowDelta :=
  snapshot.rows.map (rowDelta cache)

/-- The applied rows that the snapshot does not have, as a full pass removes them. -/
def goneDeltas (cache : Cache) (snapshot : Snapshot) : List RowDelta :=
  (cache.entries.filter fun (id, _) => (snapshot.row? id).isNone).map fun (id, row) =>
    ⟨id, some row, none⟩

theorem passDeltas_eq (cache : Cache) (snapshot : Snapshot) :
    passDeltas cache snapshot = rowDeltas cache snapshot ++ goneDeltas cache snapshot := rfl

/-- The work that the plans of changes ask for. -/
def workFor (d : Daemon σ) (deltas : List RowDelta) : List (RowKey × Action) :=
  workOf ((deltas.filterMap d.planned?).map PlannedDelta.subject)

theorem mem_workFor {deltas : List RowDelta} {x : RowKey × Action} :
    x ∈ d.workFor deltas ↔ ∃ delta ∈ deltas, delta.id = x.1 ∧
      ∃ actions, d.registry.plan delta = .ok actions ∧ x.2 ∈ actions := by
  unfold workFor
  rw [mem_workOf]
  constructor
  · rintro ⟨actions, hmem, ha⟩
    obtain ⟨p, hp, he⟩ := List.mem_map.mp hmem
    obtain ⟨delta, hdelta, hplan⟩ := List.mem_filterMap.mp hp
    obtain ⟨rfl, hok⟩ := d.planned?_eq_some_iff.mp hplan
    exact ⟨p.delta, hdelta, congrArg Prod.fst he, p.actions, hok, by
      rwa [show p.actions = actions from congrArg Prod.snd he]⟩
  · rintro ⟨delta, hdelta, hid, actions, hok, ha⟩
    refine ⟨actions, List.mem_map.mpr ⟨⟨delta, actions⟩, ?_, Prod.ext hid rfl⟩, ha⟩
    exact List.mem_filterMap.mpr ⟨delta, hdelta, d.planned?_eq_some_iff.mpr ⟨rfl, hok⟩⟩

/-- **On each resource a full pass does the work of the rows first, and then that of the removals**,
    whatever the order of its batch. -/
theorem workOn_passBy (h : d.passBy snapshot k s order = some run) (r : String) :
    workOn r (run.batch.strokes.map Stroke.subject) =
      workOn r (d.workFor (rowDeltas k.applied snapshot)) ++
        workOn r (d.workFor (goneDeltas k.applied snapshot)) := by
  have happend : workOf (run.planned.map PlannedDelta.subject) =
      d.workFor (rowDeltas k.applied snapshot) ++ d.workFor (goneDeltas k.applied snapshot) := by
    rw [planned_passBy h, passDeltas_eq, List.filterMap_append, List.map_append]
    exact List.flatMap_append
  rw [(done_passBy h).workOn_eq, happend]
  exact List.filter_append _ _

end Daemon

end Converge
