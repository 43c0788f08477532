import Converge.Daemon.Loop
import Converge.Proofs.Daemon.LifeCycle

/-!
# What a daemon asks its policies

A policy is asked for the plan of a change, and later for the status row if the change leaves one.
Which changes these are is told by what is delivered and by the applied rows.

* `Delivery.changes`, `Loop.changes`: the changes that the work on a delivery and the next step of
  the loop are about;
* `Registry.AlikeOn`: two registries answer alike whatever is asked about a change;
* `fullPass_congr`, `reconcile_congr`: registries that answer alike on these changes do the same work;
* **`step_congr`**: so the next step of the loop asks about its changes, and about nothing else.
-/

namespace Converge

variable {σ : Type}

/-! ## 1. The changes of a step -/

/-- The changes that a delivery means. -/
def Delivery.changes (k : Knowledge) : Delivery → List RowDelta
  | .rows snapshot => passDeltas k.applied snapshot
  | .event e => Daemon.eventDeltas k e

/-- The changes that the next step is about. -/
def Loop.changes (l : Loop σ) : List RowDelta :=
  l.stage.delivery?.elim [] fun x => x.changes l.scene.known

/-- Every change leads away from the applied row. -/
theorem Delivery.old_of_mem_changes {k : Knowledge} {x : Delivery} {delta : RowDelta}
    (h : delta ∈ x.changes k) : delta.old = k.applied.get? delta.id := by
  cases x with
  | rows snapshot => exact (Daemon.mem_passDeltas.mp h).1
  | event e => rw [Daemon.mem_eventDeltas h]

/-- It leads to a row that was delivered, if to any. -/
theorem Delivery.new_of_mem_changes {k : Knowledge} {x : Delivery} {delta : RowDelta}
    (h : delta ∈ x.changes k) :
    (∃ snapshot, x = .rows snapshot ∧ delta.new = snapshot.row? delta.id) ∨
    (∃ e, x = .event e ∧ delta.new = e.leaves) := by
  cases x with
  | rows snapshot => exact .inl ⟨snapshot, rfl, (Daemon.mem_passDeltas.mp h).2.1⟩
  | event e => exact .inr ⟨e, rfl, by rw [Daemon.mem_eventDeltas h]⟩

/-- **The work on a delivery notes the attempts on its changes.** -/
theorem Scene.applied_take (d : Daemon σ) (sc : Scene σ) (x : Delivery) :
    (sc.take d x).known.applied = Daemon.noteAll sc.known.applied
      (d.attempts sc.known.applied (x.changes sc.known) sc.host) := by
  cases x with
  | rows snapshot =>
    show (d.fullPass snapshot sc.known sc.host).value.1.applied = _
    rw [d.fullPass_eq sc.host (Daemon.nodup_passDeltas sc.known.applied snapshot)]
    rfl
  | event e =>
    show (sc.meet d e).2.known.applied = _
    rw [(Scene.meet_eq d sc e).2.1]
    exact d.applied_reconcile sc.known e sc.host

/-! ## 2. Registries that answer alike -/

/-- Two registries answer alike whatever is asked about a change: for its plan, and for the status of
    the row that it leaves. -/
structure Registry.AlikeOn (r r' : Registry) (delta : RowDelta) : Prop where
  plan : r'.plan delta = r.plan delta
  status : ∀ new, delta.new = some new → ∀ ok, r'.status delta.id new ok = r.status delta.id new ok

namespace Daemon

variable (d : Daemon σ) {r : Registry}

theorem commit_congr {delta : RowDelta} (h : d.registry.AlikeOn r delta) (ok : Bool) (cache : Cache)
    (s : σ) : { d with registry := r }.commit delta ok cache s = d.commit delta ok cache s := by
  have hpublish : { d with registry := r }.publish delta ok s = d.publish delta ok s := by
    unfold publish
    cases d.sink with
    | none => rfl
    | some sink =>
      cases hnew : delta.new with
      | none => rfl
      | some new =>
        dsimp only
        rw [h.status new hnew ok]
  unfold commit
  rw [hpublish]
  rfl

theorem sortOut_congr (cache : Cache) : ∀ (deltas : List RowDelta) (s : σ),
    (∀ delta ∈ deltas, d.registry.AlikeOn r delta) →
      { d with registry := r }.sortOut cache deltas s = d.sortOut cache deltas s
  | [], _, _ => rfl
  | delta :: rest, s, h => by
    have hdelta := h delta List.mem_cons_self
    have ih := fun s => sortOut_congr cache rest s fun x hx => h x (List.mem_cons_of_mem _ hx)
    unfold sortOut
    dsimp only
    rw [hdelta.plan, d.commit_congr hdelta]
    simp only [ih]

theorem settle_congr : ∀ (rows : List (RowDelta × DeltaReport)) (cache : Cache) (s : σ),
    (∀ row ∈ rows, d.registry.AlikeOn r row.1) →
      { d with registry := r }.settle rows cache s = d.settle rows cache s
  | [], _, _, _ => rfl
  | (delta, report) :: rest, cache, s, h => by
    have hdelta := h (delta, report) List.mem_cons_self
    have ih := fun cache s =>
      settle_congr rest cache s fun x hx => h x (List.mem_cons_of_mem _ hx)
    unfold settle
    dsimp only
    rw [d.commit_congr hdelta]
    simp only [ih]

/-- So it is with the rows of a batch: what was planned is among the changes. -/
theorem settle_planned_congr {deltas : List RowDelta}
    (h : ∀ delta ∈ deltas, d.registry.AlikeOn r delta) (reports : List DeltaReport) (cache : Cache)
    (s : σ) :
    { d with registry := r }.settle
      (List.zip ((deltas.filterMap d.planned?).map PlannedDelta.delta) reports) cache s =
    d.settle (List.zip ((deltas.filterMap d.planned?).map PlannedDelta.delta) reports) cache s := by
  refine d.settle_congr _ cache s fun row hrow => h row.1 ?_
  obtain ⟨p, hp, hdelta⟩ := List.mem_map.mp (List.of_mem_zip hrow).1
  obtain ⟨delta, hmem, hplanned⟩ := List.mem_filterMap.mp hp
  rw [← hdelta, (d.planned?_eq_some_iff.mp hplanned).1]
  exact hmem

/-- **A full pass asks about its changes only.** -/
theorem fullPass_congr (snapshot : Snapshot) (k : Knowledge) (s : σ)
    (h : ∀ delta ∈ passDeltas k.applied snapshot, d.registry.AlikeOn r delta) :
    { d with registry := r }.fullPass snapshot k s = d.fullPass snapshot k s := by
  unfold fullPass
  dsimp only
  rw [d.sortOut_congr k.applied _ s h]
  unfold Ran.andThen
  dsimp only
  rw [planned_sortOut, d.settle_planned_congr h]

theorem work_congr {delta : RowDelta} (h : d.registry.AlikeOn r delta) (cache : Cache) (s : σ) :
    { d with registry := r }.work delta cache s = d.work delta cache s := by
  unfold work
  dsimp only
  rw [h.plan]
  simp only [d.commit_congr h]

/-- **The work on an event asks about its change only**, and about nothing if it means none. -/
theorem reconcile_congr (k : Knowledge) (e : ChangeEvent) (s : σ)
    (h : ∀ delta ∈ eventDeltas k e, d.registry.AlikeOn r delta) :
    { d with registry := r }.reconcile e k s = d.reconcile e k s := by
  unfold eventDeltas at h
  unfold reconcile
  cases hchange : changeOf k e with
  | error err => rfl
  | ok change =>
    obtain ⟨snapshot, delta?⟩ := change
    cases delta? with
    | none => rfl
    | some delta =>
      rw [hchange] at h
      dsimp only
      rw [d.work_congr (h delta (List.mem_singleton_self _))]

end Daemon

/-! ## 3. The next step -/

/-- The work on a delivery asks about its changes only. -/
theorem Scene.take_congr (d : Daemon σ) {r : Registry} (sc : Scene σ) (x : Delivery)
    (h : ∀ delta ∈ x.changes sc.known, d.registry.AlikeOn r delta) :
    sc.take { d with registry := r } x = sc.take d x := by
  cases x with
  | rows snapshot =>
    show (sc.pass _ snapshot).2 = (sc.pass d snapshot).2
    unfold Scene.pass
    rw [d.fullPass_congr snapshot sc.known sc.host h]
  | event e =>
    show (sc.meet _ e).2 = (sc.meet d e).2
    unfold Scene.meet
    cases Daemon.busyWith? sc.known e with
    | none =>
      dsimp only
      rw [d.reconcile_congr sc.known e sc.host h]
    | some id =>
      dsimp only
      rw [d.reconcile_congr (sc.enter (.reconciling id)).known e _ h]

/-- **The next step of a loop asks about its changes, and about nothing else**: with policies that
    answer alike on them it is the same step. -/
theorem Loop.step_congr (d : Daemon σ) (feed : Feed σ) {r : Registry} (l : Loop σ)
    (h : ∀ delta ∈ l.changes, d.registry.AlikeOn r delta) :
    l.step { d with registry := r } feed = l.step d feed := by
  obtain ⟨stage, sc, stopAsked, resyncAsked⟩ := l
  cases stage with
  | loaded sub snapshot =>
    have hpass : (sc.pass { d with registry := r } snapshot).2 = (sc.pass d snapshot).2 :=
      sc.take_congr d (.rows snapshot) h
    unfold Loop.step
    dsimp only
    rw [hpass]
  | reloaded sub due snapshot =>
    have hpass : (sc.pass { d with registry := r } snapshot).2 = (sc.pass d snapshot).2 :=
      sc.take_congr d (.rows snapshot) h
    unfold Loop.step
    dsimp only
    rw [hpass]
  | received sub due e =>
    have hmeet : (sc.meet { d with registry := r } e).2 = (sc.meet d e).2 :=
      sc.take_congr d (.event e) h
    unfold Loop.step
    dsimp only
    rw [hmeet]
  | _ => rfl

end Converge
