import Converge.Proofs.Daemon.History

/-!
# Rows are applied as a whole or not at all

`Lived.remembers` tells an applied row by the attempts of the past. Here it is told what these
attempts were, and what a piece of work leaves alone.

* `Genuine`: an attempt that the policy refused has no report, and any other attempt has the report
  that the chain of its plan gave. `Lived.genuine`: a daemon makes no other attempts;
* `succeeded_iff`: an attempt succeeded exactly if it has a report and every action in it succeeded;
* `Spares`: what attempts do to the applied rows. An attempt that was refused, or of which one action
  failed, ran out of time or was skipped, leaves the row of its key as it was; `spares_event` and
  `spares_pass` say so of both kinds of work;
* `snapshot_reconcile`: the snapshot takes over an event whatever comes of the work on it;
* **`entry_eq_last_success`**: all of it together, for every life of a daemon.
-/

namespace Converge

/-- Some action was not done: it failed, ran out of time or was skipped. -/
def DeltaReport.Incomplete (r : DeltaReport) : Prop := ∃ x ∈ r.reports, x.outcome ≠ .success

theorem ActionOutcome.isSuccess_iff (o : ActionOutcome) : o.isSuccess = true ↔ o = .success := by
  cases o with
  | success => exact ⟨fun _ => rfl, fun _ => rfl⟩
  | failed failure => exact ⟨nofun, nofun⟩
  | skipped reason => exact ⟨nofun, nofun⟩

theorem DeltaReport.allSucceeded_iff (r : DeltaReport) :
    r.allSucceeded = true ↔ ∀ x ∈ r.reports, x.outcome = .success := by
  unfold allSucceeded
  rw [List.all_eq_true]
  exact forall₂_congr fun x _ => x.outcome.isSuccess_iff

theorem DeltaReport.not_allSucceeded_iff (r : DeltaReport) :
    ¬ r.allSucceeded = true ↔ r.Incomplete := by
  rw [allSucceeded_iff]
  unfold Incomplete
  push Not
  exact Iff.rfl

/-- **An attempt succeeded exactly if it has a report in which every action succeeded.** -/
theorem Attempt.succeeded_iff (a : Attempt) :
    a.succeeded = true ↔ ∃ r, a.report = some r ∧ ∀ x ∈ r.reports, x.outcome = .success := by
  unfold succeeded
  cases a.report with
  | none => simp
  | some r => simp [r.allSucceeded_iff]

/-- An attempt did not succeed exactly if it was refused or some action was not done. -/
theorem Attempt.not_succeeded_iff (a : Attempt) :
    ¬ a.succeeded = true ↔ a.report = none ∨ ∃ r, a.report = some r ∧ r.Incomplete := by
  unfold succeeded
  cases a.report with
  | none => simp
  | some r => simp [← r.not_allSucceeded_iff]

namespace Daemon

variable {σ : Type} (d : Daemon σ)

/-! ## 1. What an attempt is -/

/-- The attempt came out as a daemon makes it: without a report if the policy refused or broke down,
    and else with the report of the chain of the plan. -/
def Genuine (a : Attempt) : Prop :=
  (∃ e, d.registry.plan a.delta = .error e ∧ a.report = none) ∨
  (∃ actions s, d.registry.plan a.delta = .ok actions ∧
    a.report = some (d.executor.runDelta ⟨a.delta, actions⟩ s).value)

theorem genuine_of_mem {cache : Cache} {deltas : List RowDelta} {s : σ}
    (hids : (deltas.map (·.id)).Nodup) {a : Attempt} (ha : a ∈ d.attempts cache deltas s) :
    d.Genuine a := by
  cases hplan : d.registry.plan a.delta with
  | error e => exact .inl ⟨e, hplan, d.report_of_refused ha hplan⟩
  | ok actions =>
    obtain ⟨s', hreport⟩ := d.exists_report hids ha hplan
    exact .inr ⟨actions, s', hplan, hreport⟩

/-- **All attempts of a daemon are genuine.** -/
theorem Lived.genuine {k : Knowledge} {past : List Attempt} (h : Lived d k past) :
    ∀ a ∈ past, d.Genuine a := by
  induction h with
  | begin => exact fun a ha => absurd ha List.not_mem_nil
  | @event k past _ e s ih =>
    intro a ha
    rcases List.mem_append.mp ha with ha | ha
    · exact ih a ha
    · exact d.genuine_of_mem (nodup_eventDeltas k e) ha
  | @pass k past _ snapshot s ih =>
    intro a ha
    rcases List.mem_append.mp ha with ha | ha
    · exact ih a ha
    · exact d.genuine_of_mem (nodup_passDeltas k.applied snapshot) ha

/-! ## 2. What work leaves alone -/

/-- What attempts have done to the applied rows. -/
structure Spares (before after : Cache) (attempts : List Attempt) : Prop where
  /-- An attempt that succeeded gives its key the new row, or none if it was a removal. -/
  noted : ∀ a ∈ attempts, a.succeeded = true → after.get? a.delta.id = a.delta.new
  refused : ∀ a ∈ attempts, a.report = none → after.get? a.delta.id = before.get? a.delta.id
  incomplete : ∀ a ∈ attempts, ∀ r, a.report = some r → r.Incomplete →
    after.get? a.delta.id = before.get? a.delta.id
  /-- Keys without an attempt are left alone. -/
  others : ∀ id, id ∉ attempts.map (·.delta.id) → after.get? id = before.get? id

theorem spares_noteAll (cache : Cache) {attempts : List Attempt}
    (hids : (attempts.map (·.delta.id)).Nodup) : Spares cache (noteAll cache attempts) attempts where
  noted a ha ok := by rw [get?_noteAll hids a ha, if_pos ok]
  refused a ha hnone := by
    have hfailed : ¬ a.succeeded = true := a.not_succeeded_iff.mpr (.inl hnone)
    rw [get?_noteAll hids a ha, if_neg hfailed]
  incomplete a ha r hr hinc := by
    have hfailed : ¬ a.succeeded = true := a.not_succeeded_iff.mpr (.inr ⟨r, hr, hinc⟩)
    rw [get?_noteAll hids a ha, if_neg hfailed]
  others _ hid := get?_noteAll_of_not_mem hid

theorem spares_event (k : Knowledge) (e : ChangeEvent) (s : σ) :
    Spares k.applied (d.reconcile e k s).value.1.applied
      (d.attempts k.applied (eventDeltas k e) s) := by
  rw [applied_reconcile]
  refine spares_noteAll k.applied ?_
  rw [ids_attempts]
  exact nodup_eventDeltas k e

theorem spares_pass (k : Knowledge) (snapshot : Snapshot) (s : σ) :
    Spares k.applied (d.fullPass snapshot k s).value.1.applied
      (d.attempts k.applied (passDeltas k.applied snapshot) s) := by
  have hids := nodup_passDeltas k.applied snapshot
  rw [d.fullPass_eq s hids]
  refine spares_noteAll k.applied ?_
  rw [ids_attempts]
  exact hids

/-- The attempts of an event are on the key of the event. -/
theorem id_of_mem_event {k : Knowledge} {e : ChangeEvent} {s : σ} {a : Attempt}
    (ha : a ∈ d.attempts k.applied (eventDeltas k e) s) : a.delta.id = e.id := by
  rw [mem_eventDeltas (d.delta_mem ha)]

/-- **An event changes the row of no other key.** -/
theorem get?_reconcile_of_ne (k : Knowledge) (e : ChangeEvent) (s : σ) {id : RowKey}
    (hne : id ≠ e.id) : (d.reconcile e k s).value.1.applied.get? id = k.applied.get? id := by
  refine (d.spares_event k e s).others id fun hmem => ?_
  obtain ⟨a, ha, rfl⟩ := List.mem_map.mp hmem
  exact hne (d.id_of_mem_event ha)

/-- An event that is dropped changes nothing at all. -/
theorem reconcile_dropped {k : Knowledge} {e : ChangeEvent} {s : σ}
    (h : k.snapshot.tracks e.id.table = false) : (d.reconcile e k s).value = (k, .dropped) := by
  unfold reconcile
  rcases changeOf_eq k e with ⟨-, err, hc⟩ | ⟨ht, -⟩
  · rw [hc]
    rfl
  · rw [h] at ht
    cases ht

/-- The snapshot takes over every event that it can, whatever comes of the work on it. -/
theorem snapshot_reconcile (k : Knowledge) (e : ChangeEvent) (s : σ) :
    (d.reconcile e k s).value.1.snapshot =
      match k.snapshot.apply e with
      | .ok snapshot => snapshot
      | .error _ => k.snapshot := by
  unfold reconcile changeOf
  cases k.snapshot.apply e with
  | error err => rfl
  | ok snapshot =>
    by_cases hsame : k.applied.get? e.id = snapshot.row? e.id
    · simp only [if_pos hsame]
      rfl
    · simp only [if_neg hsame]
      rfl

/-- The rows that are known after an event. -/
theorem row?_reconcile (k : Knowledge) (e : ChangeEvent) (s : σ) (id : RowKey) :
    (d.reconcile e k s).value.1.snapshot.row? id =
      if id = e.id ∧ k.snapshot.tracks e.id.table = true then e.leaves
      else k.snapshot.row? id := by
  rw [snapshot_reconcile]
  cases ha : k.snapshot.apply e with
  | error err =>
    have hnot : ¬ k.snapshot.tracks e.id.table = true := fun ht => by
      obtain ⟨s', hs'⟩ := (Snapshot.apply_eq_ok_iff _ _).mpr ht
      rw [ha] at hs'
      cases hs'
    rw [if_neg fun hc => hnot hc.2]
  | ok snapshot =>
    have ht : k.snapshot.tracks e.id.table = true :=
      (Snapshot.apply_eq_ok_iff _ _).mp ⟨snapshot, ha⟩
    simp only [Snapshot.row?_apply ha, ht, and_true]

/-- An event leaves the tracked tables as they are. -/
theorem tracks_reconcile (k : Knowledge) (e : ChangeEvent) (s : σ) (t : String) :
    (d.reconcile e k s).value.1.snapshot.tracks t = k.snapshot.tracks t := by
  rw [snapshot_reconcile]
  cases ha : k.snapshot.apply e with
  | error err => rfl
  | ok snapshot => exact Snapshot.tracks_apply ha t

/-- The attempts that an outcome of an event tells of. -/
def attemptsTold (k : Knowledge) (e : ChangeEvent) : EventOutcome → List Attempt
  | .dropped | .unchanged => []
  | .refused _ => [⟨⟨e.id, k.applied.get? e.id, e.leaves⟩, none⟩]
  | .applied r => [⟨⟨e.id, k.applied.get? e.id, e.leaves⟩, some r⟩]

/-- **The outcome of an event tells its attempt**: the change and the report. -/
theorem attempts_event (k : Knowledge) (e : ChangeEvent) (s : σ) :
    d.attempts k.applied (eventDeltas k e) s = attemptsTold k e (d.reconcile e k s).value.2 := by
  unfold eventDeltas reconcile
  rcases changeOf_eq k e with ⟨-, err, hc⟩ | ⟨-, snapshot, hc⟩
  · rw [hc]
    rfl
  · rw [hc]
    by_cases hsame : k.applied.get? e.id = e.leaves
    · rw [if_pos hsame]
      rfl
    · rw [if_neg hsame]
      show d.attempts k.applied [⟨e.id, k.applied.get? e.id, e.leaves⟩] s =
        attemptsTold k e (d.work ⟨e.id, k.applied.get? e.id, e.leaves⟩ k.applied s).value.2
      cases hplan : d.registry.plan ⟨e.id, k.applied.get? e.id, e.leaves⟩ with
      | error err =>
        rw [d.attempts_of_refused hplan, d.work_of_refused hplan]
        rfl
      | ok actions =>
        rw [d.attempts_of_planned hplan, d.work_of_planned hplan]
        rfl

/-- What an event has done to the applied rows, told by its outcome. -/
structure EventSpares (k : Knowledge) (e : ChangeEvent) (s : σ) : Prop where
  /-- The attempt of the event, if it made one, is the one that its outcome tells of. -/
  told : d.attempts k.applied (eventDeltas k e) s = attemptsTold k e (d.reconcile e k s).value.2
  /-- Without a table that is tracked the event is dropped. -/
  dropped : k.snapshot.tracks e.id.table = false → (d.reconcile e k s).value = (k, .dropped)
  /-- The policy refused the change, or broke down. -/
  refused : ∀ err, d.registry.plan ⟨e.id, k.applied.get? e.id, e.leaves⟩ = .error err →
    (d.reconcile e k s).value.1.applied = k.applied
  /-- Some action was not done. -/
  incomplete : ∀ r, (d.reconcile e k s).value.2 = .applied r → r.Incomplete →
    (d.reconcile e k s).value.1.applied = k.applied
  others : ∀ id, id ≠ e.id → (d.reconcile e k s).value.1.applied.get? id = k.applied.get? id

theorem applied_work_of_refused {delta : RowDelta} {err : Error}
    (h : d.registry.plan delta = .error err) (cache : Cache) (s : σ) :
    (d.work delta cache s).value.1 = cache := by
  rw [d.work_of_refused h]

theorem applied_work_of_incomplete {delta : RowDelta} {cache : Cache} {s : σ} {r : DeltaReport}
    (h : (d.work delta cache s).value.2 = .applied r) (hinc : r.Incomplete) :
    (d.work delta cache s).value.1 = cache := by
  cases hplan : d.registry.plan delta with
  | error err => exact d.applied_work_of_refused hplan cache s
  | ok actions =>
    rw [d.work_of_planned hplan] at h ⊢
    obtain rfl := EventOutcome.applied.inj h
    have hfailed := (DeltaReport.not_allSucceeded_iff _).mpr hinc
    exact if_neg hfailed

theorem eventSpares (k : Knowledge) (e : ChangeEvent) (s : σ) : d.EventSpares k e s := by
  refine ⟨d.attempts_event k e s, d.reconcile_dropped, fun err herr => ?_, fun r hr hinc => ?_,
    fun id hne => d.get?_reconcile_of_ne k e s hne⟩
  · unfold reconcile
    rcases changeOf_eq k e with ⟨-, err', hc⟩ | ⟨-, snapshot, hc⟩
    · rw [hc]
      rfl
    · rw [hc]
      by_cases hsame : k.applied.get? e.id = e.leaves
      · rw [if_pos hsame]
        rfl
      · rw [if_neg hsame]
        exact d.applied_work_of_refused herr k.applied s
  · unfold reconcile at hr ⊢
    rcases changeOf_eq k e with ⟨-, err', hc⟩ | ⟨-, snapshot, hc⟩
    · rw [hc]
      rfl
    · rw [hc] at hr ⊢
      by_cases hsame : k.applied.get? e.id = e.leaves
      · rw [if_pos hsame]
        rfl
      · rw [if_neg hsame] at hr ⊢
        exact d.applied_work_of_incomplete hr hinc

/-! ## 3. The applied rows -/

/-- **The applied row of a key is the new row of the last attempt on the key that its policy accepted
    and all of whose actions succeeded**, for every life of a daemon; and whatever comes next, the
    attempts that do not succeed and the keys that are not attempted leave it alone. -/
theorem entry_eq_last_success {k : Knowledge} {past : List Attempt} (h : Lived d k past) :
    (∀ a ∈ past, d.Genuine a ∧ (a.succeeded = true ↔
      ∃ r, a.report = some r ∧ ∀ x ∈ r.reports, x.outcome = .success)) ∧
    (∀ id, k.applied.get? id = lastApplied id past) ∧
    (∀ e s, d.EventSpares k e s) ∧
    (∀ snapshot s, Spares k.applied (d.fullPass snapshot k s).value.1.applied
      (d.attempts k.applied (passDeltas k.applied snapshot) s)) :=
  ⟨fun a ha => ⟨h.genuine d a ha, a.succeeded_iff⟩, h.remembers.applied, d.eventSpares k,
    d.spares_pass k⟩

/-- A host on which commands succeed in one mood and fail in the other. -/
def moody : Host Bool where
  run _ s := (.ok ⟨if s then 0 else 1, "", ""⟩, s)
  writeFile _ _ s := (.ok (), s)
  removeFile _ s := (.ok (), s)

/-- A daemon on that host which runs the unit of every row. -/
def moodyRunner : Daemon Bool :=
  ⟨"moodyrunner", ["FEATURE"], unitRunner.registry, ⟨moody, {}, "moodyrunner"⟩, none,
    unitRunner.settings⟩

/-- The row that has appeared is changed. -/
def rowChanges : ChangeEvent := .set rowAppears.id (.ofList [("state", "disabled")])

/-- What the daemon knows when the row has appeared. -/
def moodyKnown : Knowledge := (moodyRunner.reconcile rowAppears moodyRunner.fresh true).value.1

/-- The attempts of a daemon that applied a row and failed to apply its change. -/
def moodyPast : List Attempt :=
  moodyRunner.attempts .empty (eventDeltas moodyRunner.fresh rowAppears) true ++
    moodyRunner.attempts moodyKnown.applied (eventDeltas moodyKnown rowChanges) false

/-- The applied row is still the first one after its change has failed. -/
theorem entry_eq_last_success_moody :
    Lived moodyRunner (moodyRunner.reconcile rowChanges moodyKnown false).value.1 moodyPast ∧
    (moodyRunner.reconcile rowChanges moodyKnown false).value.1.applied.get? rowAppears.id =
      some (.ofList [("state", "enabled")]) ∧
    some (.ofList [("state", "enabled")]) = lastApplied rowAppears.id moodyPast ∧
    moodyPast.map Attempt.succeeded = [true, false] ∧
    (∀ a ∈ moodyPast, moodyRunner.Genuine a) := by
  have hlived : Lived moodyRunner (moodyRunner.reconcile rowChanges moodyKnown false).value.1
      moodyPast := .event (.event .begin rowAppears true) rowChanges false
  have hrow : (moodyRunner.reconcile rowChanges moodyKnown false).value.1.applied.get?
      rowAppears.id = some (.ofList [("state", "enabled")]) := by decide +kernel
  obtain ⟨hgenuine, hentry, -, -⟩ := entry_eq_last_success moodyRunner hlived
  have hsucceeded : moodyPast.map Attempt.succeeded = [true, false] := by decide +kernel
  exact ⟨hlived, hrow, hrow ▸ hentry rowAppears.id, hsucceeded, fun a ha => (hgenuine a ha).1⟩

end Daemon

end Converge
