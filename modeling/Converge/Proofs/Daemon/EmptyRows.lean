import Converge.Proofs.Daemon.Asking
import Converge.Proofs.Daemon.Course
import Converge.Proofs.Daemon.Reading
import Converge.Proofs.Daemon.Views

/-!
# The empty row

Policies are handed the empty row where there is no row. So it must not stand for anything else:
nobody may ever keep an empty row as a row, neither the store nor the daemon that follows it,
whatever is written to the store and sent to its subscriptions.

* `Loop.Filled` is the invariant: the rows of the store, of the snapshot and the applied rows of the
  daemon, and the rows that were read and wait for their full pass. `filled_step` is one step of the
  loop, `filled_run` a whole run;
* **`empty_means_none`**: so in every run a policy sees an empty row exactly on the side of a change
  where there is no row.
-/

namespace Converge

open Store (Memory SubId)

section Runs

variable {τ : Type} {d : Daemon (Site τ)} {h : Host τ} {l l' : Loop (Site τ)}

/-! ## 1. The invariant -/

/-- Rows that are delivered are not empty ones. -/
def Delivery.Filled (x : Delivery) : Prop := ∀ s, x = .rows s → Converge.Filled s.row?

/-- So no change leads to the empty row. -/
theorem Delivery.Filled.new_ne_empty {x : Delivery} (hx : x.Filled) {k : Knowledge}
    {delta : RowDelta} (hdelta : delta ∈ x.changes k) : delta.new ≠ some .empty := by
  rcases Delivery.new_of_mem_changes hdelta with ⟨s, rfl, hnew⟩ | ⟨e, rfl, hnew⟩
  · rw [hnew]
    exact hx s rfl delta.id
  · rw [hnew]
    exact e.leaves_ne_empty

theorem Delivery.Filled.snapshot {x : Delivery} (hx : x.Filled) {s : Snapshot}
    (hs : Converge.Filled s.row?) : Converge.Filled (x.onto s).row? := by
  cases x with
  | rows s' => exact hx s' rfl
  | event e =>
    rcases onto_event s e with ⟨next, hnext, honto⟩ | ⟨-, honto⟩
    · rw [honto]
      refine hs.of_cases fun id => ?_
      rw [Snapshot.row?_apply hnext]
      split_ifs with hid
      · exact .inr e.leaves_ne_empty
      · exact .inl rfl
    · rw [honto]
      exact hs

theorem Delivery.Filled.applied {x : Delivery} (hx : x.Filled) {sc : Scene (Site τ)}
    (hk : Converge.Filled sc.known.applied.get?) :
    Converge.Filled (sc.take d x).known.applied.get? := by
  refine hk.of_cases fun id => ?_
  rw [Scene.applied_take]
  rcases Daemon.get?_noteAll_cases id (d.attempts sc.known.applied (x.changes sc.known) sc.host)
    sc.known.applied with hrow | ⟨a, ha, hrow⟩
  · exact .inl hrow
  · rw [hrow]
    exact .inr (hx.new_ne_empty (d.delta_mem ha))

/-- Nowhere is there an empty row: not in the store, not among the rows as the daemon knows them, not
    among its applied rows, and not among the rows that were read and wait for their full pass. -/
structure Loop.Filled (l : Loop (Site τ)) : Prop where
  store : Converge.Filled l.store.row?
  snapshot : Converge.Filled l.snapshot.row?
  applied : Converge.Filled l.scene.known.applied.get?
  read : ∀ s, l.stage.snapshot? = some s → Converge.Filled s.row?

theorem Loop.Filled.delivery (hl : l.Filled) {x : Delivery} (hx : l.stage.delivery? = some x) :
    x.Filled := by
  rintro s rfl
  exact hl.read s (Stage.snapshot?_of_delivery? hx)

/-- Every change of the next step leads from the applied row, and never to the empty one. -/
theorem Loop.Filled.change (hl : l.Filled) {delta : RowDelta} (hdelta : delta ∈ l.changes) :
    delta.new ≠ some .empty ∧ delta.old = l.scene.known.applied.get? delta.id := by
  unfold Loop.changes at hdelta
  cases hx : l.stage.delivery? with
  | none =>
    rw [hx] at hdelta
    cases hdelta
  | some x =>
    rw [hx] at hdelta
    exact ⟨(hl.delivery hx).new_ne_empty hdelta, Delivery.old_of_mem_changes hdelta⟩

/-- **One step of the loop.** -/
theorem filled_step (hhost : d.executor.host = Site.host h)
    (hsink : d.sink = none ∨ d.sink = some Site.sink) (hl : l.Filled)
    (hstep : l.step d Site.feed = some l') : l'.Filled := by
  have hreads := step_reads (leavesAlone_tables hhost hsink) hstep
  have hknown := (Loop.step_passes hstep).known
  have hlearnt : Filled l'.snapshot.row? ∧ Filled l'.scene.known.applied.get? := by
    unfold Loop.snapshot
    rw [hknown]
    cases hx : l.stage.delivery? with
    | none => exact ⟨hl.snapshot, hl.applied⟩
    | some x =>
      have hfilled := hl.delivery hx
      refine ⟨?_, hfilled.applied hl.applied⟩
      show Filled (l.scene.take d x).known.snapshot.row?
      rw [Scene.snapshot_take]
      exact hfilled.snapshot hl.snapshot
  exact {
    store := Memory.filled_of_tables hl.store hreads.part
    snapshot := hlearnt.1
    applied := hlearnt.2
    read := fun s hs => Memory.filled_of_load hl.store (hreads.read s hs) }

/-! ## 2. Whole runs -/

/-- What happens next to a daemon at its loop. -/
inductive Occasion (τ : Type) where
  /-- Others do something to the store. -/
  | others (u : Store.Use)
  /-- The machine becomes something else. -/
  | machine (t : τ)
  | time (now : Duration)
  | askStop
  | askResync
  /-- The daemon takes one step, if it has not ended and need not wait. -/
  | work
deriving DecidableEq

/-- The loop after it. -/
def Loop.occur (d : Daemon (Site τ)) (l : Loop (Site τ)) : Occasion τ → Loop (Site τ)
  | .others u => { l with scene.host.store := l.store.use u }
  | .machine t => { l with scene.host.machine := t }
  | .time now => l.moveTo now
  | .askStop => { l with stopAsked := true }
  | .askResync => { l with resyncAsked := true }
  | .work => (l.step d Site.feed).getD l

/-- A run of the daemon beside a new store, up to a moment. -/
def Daemon.ran (d : Daemon (Site τ)) (t : τ) (past : List (Occasion τ)) : Loop (Site τ) :=
  past.foldl (Loop.occur d) (.start d ⟨t, {}⟩)

theorem filled_occur (hhost : d.executor.host = Site.host h)
    (hsink : d.sink = none ∨ d.sink = some Site.sink) (hl : l.Filled) (o : Occasion τ) :
    (l.occur d o).Filled := by
  cases o with
  | others u => exact ⟨Memory.filled_use hl.store u, hl.snapshot, hl.applied, hl.read⟩
  | machine t => exact ⟨hl.store, hl.snapshot, hl.applied, hl.read⟩
  | time now => exact ⟨hl.store, hl.snapshot, hl.applied, hl.read⟩
  | askStop => exact ⟨hl.store, hl.snapshot, hl.applied, hl.read⟩
  | askResync => exact ⟨hl.store, hl.snapshot, hl.applied, hl.read⟩
  | work =>
    unfold Loop.occur
    cases hstep : l.step d Site.feed with
    | none => exact hl
    | some l' => exact filled_step hhost hsink hl hstep

/-- There is nothing at all at the beginning. -/
theorem filled_start (d : Daemon (Site τ)) (t : τ) : (Loop.start d ⟨t, {}⟩).Filled where
  store _ := nofun
  snapshot id := by
    show (Snapshot.tracking d.tables).row? id ≠ some .empty
    rw [Daemon.row?_tracking]
    nofun
  applied _ := nofun
  read _ hs := nomatch hs

theorem filled_run (hhost : d.executor.host = Site.host h)
    (hsink : d.sink = none ∨ d.sink = some Site.sink) (t : τ) (past : List (Occasion τ)) :
    (d.ran t past).Filled := by
  unfold Daemon.ran
  induction past using List.reverseRecOn with
  | nil => exact filled_start d t
  | append_singleton past o ih =>
    rw [List.foldl_append]
    exact filled_occur hhost hsink ih o

/-- At some moment the empty row means that there is no row, and nothing else. -/
structure EmptyMeansNone (d : Daemon (Site τ)) (l : Loop (Site τ)) : Prop where
  store : ∀ id, l.store.row? id ≠ some .empty
  snapshot : ∀ id, l.snapshot.row? id ≠ some .empty
  applied : ∀ id, l.scene.known.applied.get? id ≠ some .empty
  /-- A policy that is asked for the plan of a change is handed an empty new row exactly if the change
      is a removal, -/
  new_seen : ∀ delta ∈ l.changes, delta.new.getD .empty = .empty ↔ delta.isRemoval = true
  /-- and an empty old row exactly if no row of the key was applied. -/
  old_seen : ∀ delta ∈ l.changes,
    delta.old.getD .empty = .empty ↔ l.scene.known.applied.get? delta.id = none
  /-- A policy that is asked for a status row is handed a new row that is not empty. -/
  status_seen : ∀ delta ∈ l.changes, ∀ new, delta.new = some new → new ≠ .empty
  /-- The policies are asked about these changes only: with others that answer alike on them, the next
      step is the same. -/
  asked : ∀ r, (∀ delta ∈ l.changes, d.registry.AlikeOn r delta) →
    l.step { d with registry := r } Site.feed = l.step d Site.feed

/-- The empty row stands for no row, where no row is empty. -/
theorem getD_eq_empty_iff {row : Option Row} (h : row ≠ some .empty) :
    row.getD .empty = .empty ↔ row = none := by
  cases row with
  | none => exact ⟨fun _ => rfl, fun _ => rfl⟩
  | some r => exact ⟨fun he => absurd (congrArg some he) h, nofun⟩

/-- **The empty row is only ever the sign that there is no row**: in every run, whatever others do to
    the store, whatever the policies answer and whatever becomes of the actions. -/
theorem empty_means_none (hhost : d.executor.host = Site.host h)
    (hsink : d.sink = none ∨ d.sink = some Site.sink) (t : τ) (past : List (Occasion τ)) :
    EmptyMeansNone d (d.ran t past) := by
  have hl := filled_run hhost hsink t past
  generalize d.ran t past = l at hl
  exact {
    store := hl.store
    snapshot := hl.snapshot
    applied := hl.applied
    new_seen := fun delta hdelta => by
      rw [getD_eq_empty_iff (hl.change hdelta).1]
      exact Option.isNone_iff_eq_none.symm
    old_seen := fun delta hdelta => by
      rw [(hl.change hdelta).2]
      exact getD_eq_empty_iff (hl.applied delta.id)
    status_seen := fun delta hdelta new hnew he =>
      (hl.change hdelta).1 (by rw [hnew, he])
    asked := fun _ halike => l.step_congr d Site.feed halike }

end Runs

/-- Two rows are set and the daemon connects. Then a deletion is sent that carries a row, and after it a
    setting without one; the daemon is done with the first and has received the second. -/
def oddEvents : List (Occasion Unit) :=
  [.others (.set ntp (.ofList [("state", "enabled")])),
    .others (.set otherAppears.id otherAppears.row)] ++
  List.replicate 7 .work ++
  [.others (.inject { otherAppears with op := .del }), .others (.inject (.set ntp .empty))] ++
  List.replicate 5 .work

/-- Its policy will see that the row goes away, which the store still holds. -/
theorem empty_means_none_oddEvents :
    viewer.executor.host = Site.host Daemon.cannotStart ∧
    (viewer.sink = none ∨ viewer.sink = some Site.sink) ∧
    (viewer.ran () oddEvents).changes = [⟨ntp, some (.ofList [("state", "enabled")]), none⟩] ∧
    (viewer.ran () oddEvents).store.row? ntp = some (.ofList [("state", "enabled")]) ∧
    EmptyMeansNone viewer (viewer.ran () oddEvents) :=
  ⟨rfl, .inr rfl, by decide +kernel, by decide +kernel,
    empty_means_none rfl (.inr rfl) () oddEvents⟩

end Converge
