import Converge.Feature.Daemon
import Converge.Proofs.Daemon.StatusRows

/-!
# Status rows of features

The daemon of the features publishes a status row for every row that it worked on: that the feature
has failed, or whether it runs. What follows is for a store that can be reached throughout, and for
any machine.

* `StatusAgrees`: the status row of a feature says what the daemon knows of it;
* `TakenBack`: a change has failed, and then its row came back to what was applied. The daemon
  compares the row with the applied one, finds nothing to do and publishes nothing;
* **`status_agrees_unless_taken_back`**: after the first full pass every status row agrees, unless a
  failed change was taken back; and then it still says that the feature has failed
  (`failed_status_outlives_row`).
-/

namespace Converge

open Store (Memory)

/-! ## 1. What is published about a feature -/

/-- The name of the row of a feature. -/
def featureId (name : String) : RowKey := ⟨FeatureConfig.table, name⟩

/-- The status row with a word. -/
def stateRow (word : String) : Row := .ofList [("state", word)]

section Policy

variable {r : Registry} {m : FeatureManager} {name : String}

/-- The registry asks the manager about rows of features. -/
def ServesFeatures (r : Registry) (m : FeatureManager) : Prop :=
  r.policies.get? FeatureConfig.table = some m.policy

theorem status_feature (hr : ServesFeatures r m) (row : Row) (ok : Bool) :
    r.status (featureId name) row ok = FeatureManager.status name row ok := by
  have hpolicy : r.policies.get? (featureId name).table = some m.policy := hr
  unfold Registry.status
  rw [hpolicy]
  rfl

/-- About a row that was not applied there is always something to publish. -/
theorem word_of_failed (hr : ServesFeatures r m) {a : Attempt} (hid : a.delta.id = featureId name)
    (hfailed : a.succeeded = false) {row : Row} (hnew : a.delta.new = some row) :
    a.word r = some (some (stateRow "failed")) := by
  unfold Attempt.word Registry.announcement
  simp only [hnew, hfailed, hid, status_feature hr]
  rfl

/-- About a row that was applied: whether the feature runs. -/
theorem word_of_applied (hr : ServesFeatures r m) {a : Attempt} (hid : a.delta.id = featureId name)
    (ok : a.succeeded = true) {row : Row} (hnew : a.delta.new = some row) {f : Feature}
    (hf : Feature.ofRow name row = .ok f) :
    a.word r = some (some (stateRow f.state.statusWord)) := by
  unfold Attempt.word Registry.announcement
  simp only [hnew, ok, hid, status_feature hr, FeatureManager.status, hf]
  rfl

/-- The registry plans a change of a row of a feature as the manager does. -/
theorem plan_of_registry (hr : ServesFeatures r m) {delta : RowDelta} (hid : delta.id = featureId name)
    {actions : List Action} (h : r.plan delta = .ok actions) :
    m.plan name (delta.old.getD .empty) (delta.new.getD .empty) = .ok actions := by
  have hpolicy : r.policies.get? delta.id.table = some m.policy := by rw [hid]; exact hr
  have hkey : delta.id.key = name := by rw [hid]; rfl
  unfold Registry.plan at h
  simp only [hpolicy, FeatureManager.policy, hkey] at h
  cases hm : m.plan name (delta.old.getD .empty) (delta.new.getD .empty) with
  | ok planned =>
    rw [hm] at h
    cases h
    rfl
  | error fault =>
    rw [hm] at h
    cases h

/-- A row that has a plan can be read, unless it is empty. -/
theorem exists_feature (hr : ServesFeatures r m) {delta : RowDelta} (hid : delta.id = featureId name)
    {actions : List Action} (hplan : r.plan delta = .ok actions) {row : Row}
    (hnew : delta.new = some row) (hrow : ¬ row.isEmpty = true) :
    ∃ f, Feature.ofRow name row = .ok f := by
  have hm := plan_of_registry hr hid hplan
  rw [hnew, Option.getD_some] at hm
  unfold FeatureManager.plan at hm
  rw [if_neg hrow] at hm
  cases hf : Feature.ofRow name row with
  | ok f => exact ⟨f, rfl⟩
  | error e =>
    rw [hf] at hm
    cases hm

end Policy

section Made

variable {σ : Type} {host : Host σ} {sink : Option (StatusSink σ)} {d : Daemon σ} {c : FeatureConfig}

/-- The daemon of the features, on any host, and with any place for its status rows or none. -/
theorem FeatureConfig.daemon_eq (hd : c.daemon host sink = .ok d) :
    d = ⟨FeatureConfig.daemonName, [FeatureConfig.table],
      ⟨SortedMap.empty.insert FeatureConfig.table c.manager.policy⟩,
      ⟨host, c.common.executor, FeatureConfig.daemonName⟩, sink, c.common.loop.settings⟩ :=
  (Except.ok.inj hd).symm

theorem FeatureConfig.daemon_parts (hd : c.daemon host sink = .ok d) :
    d.executor.host = host ∧ d.sink = sink ∧ ServesFeatures d.registry c.manager := by
  obtain rfl := daemon_eq hd
  refine ⟨rfl, rfl, ?_⟩
  unfold ServesFeatures
  rw [SortedMap.get?_insert, if_pos rfl]

/-- It plans nothing but changes of features. -/
theorem FeatureConfig.id_of_plan (hd : c.daemon host sink = .ok d) {delta : RowDelta}
    {actions : List Action} (h : d.registry.plan delta = .ok actions) :
    delta.id = featureId delta.id.key := by
  obtain rfl := daemon_eq hd
  by_cases htable : delta.id.table = FeatureConfig.table
  · exact (RowKey.eq_iff_of_table htable).mp rfl
  · unfold Registry.plan at h
    simp only [SortedMap.get?_insert, if_neg htable, SortedMap.get?_empty] at h
    cases h

end Made

/-! ## 2. Status rows and what is known -/

/-- The status row of a feature says what is known of it. -/
structure StatusAgrees (v : Served) (name : String) : Prop where
  /-- There is none for a feature that is neither asked for nor applied. -/
  absent : v.known.snapshot.row? (featureId name) = none →
    v.known.applied.get? (featureId name) = none → v.store.status.get? (featureId name) = none
  /-- A feature has failed if its row is not the applied one. -/
  failed : ∀ row, v.known.snapshot.row? (featureId name) = some row →
    v.known.applied.get? (featureId name) ≠ some row →
    v.store.status.get? (featureId name) = some (stateRow "failed")
  /-- A feature with the applied row is as the row says. A row without any field says nothing. -/
  applied : ∀ row, v.known.snapshot.row? (featureId name) = some row →
    v.known.applied.get? (featureId name) = some row → ¬ row.isEmpty = true →
    ∃ f, Feature.ofRow name row = .ok f ∧
      v.store.status.get? (featureId name) = some (stateRow f.state.statusWord)

/-- The row is as it was applied, though the last word on it is that a change has failed. -/
def TakenBack (r : Registry) (v : Served) (name : String) : Prop :=
  v.known.snapshot.row? (featureId name) = v.known.applied.get? (featureId name) ∧
  ∃ a, lastWord r (featureId name) v.past = some a ∧ a.succeeded = false

section Serving

variable {τ : Type} {h : Host τ} {d : Daemon (Site τ)} {v : Served} {name : String}

/-- An applied row that is not empty can be read, and the last attempt that succeeded has published
    whether its feature runs. -/
theorem exists_lastSuccess {m : FeatureManager} (hr : ServesFeatures d.registry m)
    {k : Knowledge} {past : List Attempt} (hlived : Daemon.Lived d k past) {row : Row}
    (happlied : k.applied.get? (featureId name) = some row) (hrow : ¬ row.isEmpty = true) :
    ∃ b f, lastSuccess (featureId name) past = some b ∧ Feature.ofRow name row = .ok f ∧
      b.word d.registry = some (some (stateRow f.state.statusWord)) := by
  have hlast := hlived.remembers.applied (featureId name)
  rw [happlied, lastApplied_eq] at hlast
  obtain ⟨b, hb, hnew⟩ := Option.bind_eq_some_iff.mp hlast.symm
  obtain ⟨hmem, hid, ok⟩ := lastSuccess_spec hb
  obtain ⟨r, hreport, -⟩ := b.succeeded_iff.mp ok
  rcases hlived.genuine d b hmem with ⟨-, -, hnone⟩ | ⟨actions, -, hplan, -⟩
  · rw [hnone] at hreport
    cases hreport
  · obtain ⟨f, hf⟩ := exists_feature hr hid hplan hnew hrow
    exact ⟨b, f, hb, hf, word_of_applied hr hid ok hnew hf⟩

/-- **After the first full pass the status row of every feature agrees with what is known of it,
    unless a failed change was taken back: then it says that the feature has failed.** -/
theorem status_agrees_unless_taken_back {c : FeatureConfig}
    (hd : c.daemon (Site.host h) (some Site.sink) = .ok d) (hv : Daemon.Serves d v)
    (hpassed : v.passed = true) (name : String) :
    (¬ TakenBack d.registry v name → StatusAgrees v name) ∧
    (TakenBack d.registry v name →
      v.store.status.get? (featureId name) = some (stateRow "failed")) := by
  obtain ⟨hhost, hsink, hr⟩ := FeatureConfig.daemon_parts hd
  have htold := hv.status_told hhost hsink (featureId name)
  refine ⟨fun hback => ⟨fun hgone hclear => ?_, fun row hrow hne => ?_, fun row hrow heq hfull => ?_⟩,
    fun hback => ?_⟩
  · -- neither asked for nor applied
    have hlast : ∀ a, lastWord d.registry (featureId name) v.past = some a → a.succeeded = true :=
      fun a ha => Bool.of_not_eq_false fun hf => hback ⟨hgone.trans hclear.symm, a, ha, hf⟩
    rw [htold, told_none_of_lastApplied ((hv.lived.remembers.applied _).symm.trans hclear) hlast]
  · -- asked for, but not applied
    obtain ⟨a, ha, hfailed, hnew⟩ :=
      (hv.known_or_failed hpassed (featureId name)).resolve_left fun hsame =>
        hne (hsame.symm.trans hrow)
    have hid : a.delta.id = featureId name := by simpa using List.find?_some ha
    have hword := word_of_failed hr hid hfailed (hnew.trans hrow)
    rw [htold, lastWord_of_lastOn ha (by rw [hword]; rfl), Option.bind_some, hword]
    rfl
  · -- as it was applied
    have hlast : ∀ a, lastWord d.registry (featureId name) v.past = some a → a.succeeded = true :=
      fun a ha => Bool.of_not_eq_false fun hf => hback ⟨hrow.trans heq.symm, a, ha, hf⟩
    obtain ⟨b, f, hb, hf, hword⟩ := exists_lastSuccess hr hv.lived heq hfull
    refine ⟨f, hf, ?_⟩
    rw [htold, lastWord_eq_lastSuccess hb (by rw [hword]; rfl) hlast, Option.bind_some, hword]
    rfl
  · -- the last word is that a change has failed
    obtain ⟨-, a, ha, hfailed⟩ := hback
    obtain ⟨-, hid, hsome⟩ := lastWord_spec ha
    cases hnew : a.delta.new with
    | none =>
      rw [word_of_removal hnew, hfailed] at hsome
      cases hsome
    | some row =>
      rw [htold, ha, Option.bind_some, word_of_failed hr hid hfailed hnew]
      rfl

end Serving

/-! ## 3. A status row that stays -/

section Bench

open Daemon (Serves cannotStart)

/-- The daemon of the features where no unit can be started. -/
def bench : Daemon (Site Unit) where
  name := FeatureConfig.daemonName
  tables := [FeatureConfig.table]
  registry := ⟨SortedMap.empty.insert FeatureConfig.table (FeatureConfig.manager {}).policy⟩
  executor := ⟨Site.host cannotStart, {}, FeatureConfig.daemonName⟩
  sink := some Site.sink
  settings := LoopConfig.settings {}

theorem bench_made : ({} : FeatureConfig).daemon (Site.host cannotStart) (some Site.sink) =
    .ok bench := rfl

/-- After a full pass over an empty table a feature is to run, and its unit cannot be started. -/
def benchTried : Served :=
  ((⟨bench.fresh, {}, [], false⟩ : Served).pass bench bench.fresh.snapshot ()).meet bench
    (.set (featureId "ntp") (.ofList [("state", "enabled")])) ()

/-- Then its row is deleted. -/
def benchDeleted : Served := benchTried.meet bench (.del (featureId "ntp")) ()

theorem serves_benchTried : Serves bench benchTried := .event (.pass (.begin rfl rfl) _ ()) _ ()

/-- The row that could not be applied is published as failed. -/
theorem status_agrees_benchTried :
    ({} : FeatureConfig).daemon (Site.host cannotStart) (some Site.sink) = .ok bench ∧
    Serves bench benchTried ∧ benchTried.passed = true ∧
    ¬ TakenBack bench.registry benchTried "ntp" ∧ StatusAgrees benchTried "ntp" ∧
    benchTried.store.status.get? (featureId "ntp") = some (stateRow "failed") := by
  have hrow : benchTried.known.snapshot.row? (featureId "ntp") =
      some (.ofList [("state", "enabled")]) := by decide +kernel
  have hclear : benchTried.known.applied.get? (featureId "ntp") = none := by decide +kernel
  have hback : ¬ TakenBack bench.registry benchTried "ntp" := by
    rintro ⟨hsame, -⟩
    rw [hrow, hclear] at hsame
    cases hsame
  obtain ⟨hagrees, -⟩ :=
    status_agrees_unless_taken_back bench_made serves_benchTried (by decide +kernel) "ntp"
  have hfailed := (hagrees hback).failed _ hrow (by rw [hclear]; nofun)
  exact ⟨bench_made, serves_benchTried, by decide +kernel, hback, hagrees hback, hfailed⟩

/-- **The status row outlives the row**: the feature is neither asked for nor applied any more, and is
    still published as failed. -/
theorem failed_status_outlives_row :
    Serves bench benchDeleted ∧ benchDeleted.passed = true ∧
    benchDeleted.known.snapshot.row? (featureId "ntp") = none ∧
    benchDeleted.known.applied.get? (featureId "ntp") = none ∧
    benchDeleted.store.status.get? (featureId "ntp") = some (stateRow "failed") ∧
    ¬ StatusAgrees benchDeleted "ntp" := by
  have hgone : benchDeleted.known.snapshot.row? (featureId "ntp") = none := by decide +kernel
  have hclear : benchDeleted.known.applied.get? (featureId "ntp") = none := by decide +kernel
  have hstays : benchDeleted.store.status.get? (featureId "ntp") = some (stateRow "failed") := by
    decide +kernel
  refine ⟨.event serves_benchTried _ (), by decide +kernel, hgone, hclear, hstays, fun h => ?_⟩
  have hnone := h.absent hgone hclear
  rw [hstays] at hnone
  cases hnone

end Bench

end Converge
