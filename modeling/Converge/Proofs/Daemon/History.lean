import Converge.Proofs.Daemon.FullPass

/-!
# What a daemon remembers of its attempts

A daemon lives through events and full passes, on a host that may have become anything in between.
All it remembers of its attempts is the last row of each key that was applied without a failure.

* `Lived d k past`: a daemon that knows `k` has made the attempts `past`;
* `Lived.applied_eq`: what it knows of a key is told by the last attempt that succeeded, and
  **`Lived.get?_applied`** by the last attempt of all: the new row if it succeeded, the old row if
  not;
* **`reconcile_unchanged_iff`**: so an event is answered as `unchanged` exactly if it leaves that
  row. After a failed attempt this happens when the event takes the change back
  (`unchanged_after_half_a_change`).
-/

namespace Converge.Daemon

variable {σ : Type} (d : Daemon σ)

/-! ## 1. The work on one event -/

/-- The changes that an event means: one at most. -/
def eventDeltas (k : Knowledge) (e : ChangeEvent) : List RowDelta :=
  match changeOf k e with
  | .ok (_, some delta) => [delta]
  | _ => []

theorem changeOf_eq (k : Knowledge) (e : ChangeEvent) :
    (k.snapshot.tracks e.id.table = false ∧ ∃ err, changeOf k e = .error err) ∨
    (k.snapshot.tracks e.id.table = true ∧ ∃ snapshot, changeOf k e = .ok (snapshot,
      if k.applied.get? e.id = e.leaves then none
      else some ⟨e.id, k.applied.get? e.id, e.leaves⟩)) := by
  unfold changeOf
  cases h : k.snapshot.apply e with
  | error err =>
    have hnot : ¬ k.snapshot.tracks e.id.table = true := fun ht => by
      obtain ⟨s', hs'⟩ := (Snapshot.apply_eq_ok_iff _ _).mpr ht
      rw [h] at hs'
      cases hs'
    exact .inl ⟨eq_false_of_ne_true hnot, err, rfl⟩
  | ok snapshot =>
    have hrow : snapshot.row? e.id = e.leaves := by rw [Snapshot.row?_apply h, if_pos rfl]
    refine .inr ⟨(Snapshot.apply_eq_ok_iff _ _).mp ⟨snapshot, h⟩, snapshot, ?_⟩
    simp only [hrow]

/-- The change of an event leads from the applied row to the row that the event leaves. -/
theorem mem_eventDeltas {k : Knowledge} {e : ChangeEvent} {delta : RowDelta}
    (h : delta ∈ eventDeltas k e) : delta = ⟨e.id, k.applied.get? e.id, e.leaves⟩ := by
  unfold eventDeltas at h
  rcases changeOf_eq k e with ⟨-, err, hc⟩ | ⟨-, snapshot, hc⟩
  · rw [hc] at h
    cases h
  · rw [hc] at h
    by_cases hsame : k.applied.get? e.id = e.leaves
    · rw [if_pos hsame] at h
      cases h
    · rw [if_neg hsame] at h
      exact List.mem_singleton.mp h

theorem nodup_eventDeltas (k : Knowledge) (e : ChangeEvent) :
    ((eventDeltas k e).map (·.id)).Nodup := by
  unfold eventDeltas
  split
  · exact List.nodup_singleton _
  · exact List.nodup_nil

theorem work_of_refused {delta : RowDelta} {err : Error} (h : d.registry.plan delta = .error err)
    (cache : Cache) (s : σ) : (d.work delta cache s).value = (cache, .refused err.message) := by
  unfold work
  rw [h]
  rfl

theorem work_of_planned {delta : RowDelta} {actions : List Action}
    (h : d.registry.plan delta = .ok actions) (cache : Cache) (s : σ) :
    (d.work delta cache s).value =
      (note cache delta (d.executor.runDelta ⟨delta, actions⟩ s).value.allSucceeded,
        .applied (d.executor.runDelta ⟨delta, actions⟩ s).value) := by
  unfold work
  rw [h]
  simp only [Executor.executeBatch_singleton, Ran.andThen_assoc, Ran.idle_andThen]
  rfl

theorem attempts_of_refused {delta : RowDelta} {err : Error}
    (h : d.registry.plan delta = .error err) (cache : Cache) (s : σ) :
    d.attempts cache [delta] s = [⟨delta, none⟩] := by
  unfold attempts attemptOn planned?
  simp only [List.map_cons, List.map_nil, h, Option.bind_none]

theorem attempts_of_planned {delta : RowDelta} {actions : List Action}
    (h : d.registry.plan delta = .ok actions) (cache : Cache) (s : σ) :
    d.attempts cache [delta] s =
      [⟨delta, some (d.executor.runDelta ⟨delta, actions⟩ s).value⟩] := by
  have hreports : d.passReports cache [delta] s =
      [(d.executor.runDelta ⟨delta, actions⟩ s).value] := by
    unfold passReports sortOut
    rw [h]
    simp only [sortOut, Ran.idle_andThen]
    show (d.executor.executeBatch [⟨delta, actions⟩] s).value = _
    rw [Executor.executeBatch_singleton]
    rfl
  have hid : (d.executor.runDelta ⟨delta, actions⟩ s).value.id = delta.id := rfl
  unfold attempts attemptOn planned?
  simp only [List.map_cons, List.map_nil, h, hreports, Option.bind_some, List.find?_cons, hid,
    decide_true]

/-- The work on a row notes its attempt. -/
theorem applied_work (delta : RowDelta) (cache : Cache) (s : σ) :
    (d.work delta cache s).value.1 = noteAll cache (d.attempts cache [delta] s) := by
  cases hplan : d.registry.plan delta with
  | error err =>
    rw [d.work_of_refused hplan, d.attempts_of_refused hplan]
    rfl
  | ok actions =>
    rw [d.work_of_planned hplan, d.attempts_of_planned hplan]
    rfl

/-- Work is never answered as if there had been nothing to do. -/
theorem work_ne_unchanged (delta : RowDelta) (cache : Cache) (s : σ) :
    (d.work delta cache s).value.2 ≠ .unchanged := by
  cases hplan : d.registry.plan delta with
  | error err =>
    rw [d.work_of_refused hplan]
    nofun
  | ok actions =>
    rw [d.work_of_planned hplan]
    nofun

/-- **An event notes its attempt**, if it makes one. -/
theorem applied_reconcile (k : Knowledge) (e : ChangeEvent) (s : σ) :
    (d.reconcile e k s).value.1.applied =
      noteAll k.applied (d.attempts k.applied (eventDeltas k e) s) := by
  unfold reconcile eventDeltas
  cases changeOf k e with
  | error err => rfl
  | ok change =>
    obtain ⟨snapshot, delta?⟩ := change
    cases delta? with
    | none => rfl
    | some delta => exact d.applied_work delta k.applied s

/-- An event is answered as `unchanged` exactly if its table is tracked and it leaves the applied
    row. -/
theorem reconcile_eq_unchanged_iff (k : Knowledge) (e : ChangeEvent) (s : σ) :
    (d.reconcile e k s).value.2 = .unchanged ↔
      k.snapshot.tracks e.id.table = true ∧ e.leaves = k.applied.get? e.id := by
  unfold reconcile
  rcases changeOf_eq k e with ⟨ht, err, hc⟩ | ⟨ht, snapshot, hc⟩
  · rw [hc, ht]
    exact ⟨nofun, nofun⟩
  · rw [hc]
    by_cases hsame : k.applied.get? e.id = e.leaves
    · rw [if_pos hsame]
      exact ⟨fun _ => ⟨ht, hsame.symm⟩, fun _ => rfl⟩
    · rw [if_neg hsame]
      exact ⟨fun h => absurd h (d.work_ne_unchanged _ _ _), fun h => absurd h.2.symm hsame⟩

/-! ## 2. Lives -/

/-- A daemon that knows `k` has made the attempts `past`, oldest first. Between two pieces of work
    the host may become anything. -/
inductive Lived : Knowledge → List Attempt → Prop where
  | begin : Lived d.fresh []
  | event {k : Knowledge} {past : List Attempt} (h : Lived k past) (e : ChangeEvent) (s : σ) :
    Lived (d.reconcile e k s).value.1
      (past ++ d.attempts k.applied (eventDeltas k e) s)
  | pass {k : Knowledge} {past : List Attempt} (h : Lived k past) (snapshot : Snapshot) (s : σ) :
    Lived (d.fullPass snapshot k s).value.1
      (past ++ d.attempts k.applied (passDeltas k.applied snapshot) s)

/-- The last attempt on a key. -/
def lastOn (id : RowKey) (past : List Attempt) : Option Attempt :=
  past.reverse.find? fun a => a.delta.id = id

/-- The row that the last attempt that succeeded has given a key. -/
def lastApplied (id : RowKey) (past : List Attempt) : Option Row :=
  (past.reverse.find? fun a => a.delta.id = id && a.succeeded).bind (·.delta.new)

/-- The applied rows are what the attempts have left, told by the last attempt of all and by the last
    one that succeeded. -/
structure Remembers (cache : Cache) (past : List Attempt) : Prop where
  last : ∀ id, cache.get? id = (lastOn id past).bind Attempt.known
  applied : ∀ id, cache.get? id = lastApplied id past

/-- **More attempts on different keys, each from the applied row.** -/
theorem Remembers.noteAll {cache : Cache} {past later : List Attempt} (h : Remembers cache past)
    (hids : (later.map (·.delta.id)).Nodup)
    (hold : ∀ a ∈ later, a.delta.old = cache.get? a.delta.id) :
    Remembers (noteAll cache later) (past ++ later) where
  last id := by
    unfold lastOn
    rw [List.reverse_append, List.find?_append]
    cases hfound : later.reverse.find? fun a => a.delta.id = id with
    | some a =>
      have ha := List.mem_reverse.mp (List.mem_of_find?_eq_some hfound)
      obtain rfl : a.delta.id = id := by simpa using List.find?_some hfound
      rw [get?_noteAll hids a ha, ← hold a ha]
      rfl
    | none =>
      have hnone : id ∉ later.map (·.delta.id) := by
        rintro hmem
        obtain ⟨a, ha, rfl⟩ := List.mem_map.mp hmem
        exact List.find?_eq_none.mp hfound a (List.mem_reverse.mpr ha) (decide_eq_true rfl)
      rw [get?_noteAll_of_not_mem hnone]
      exact h.last id
  applied id := by
    unfold lastApplied
    rw [List.reverse_append, List.find?_append]
    cases hfound : later.reverse.find? fun a => a.delta.id = id && a.succeeded with
    | some a =>
      have ha := List.mem_reverse.mp (List.mem_of_find?_eq_some hfound)
      obtain ⟨rfl, hok⟩ : a.delta.id = id ∧ a.succeeded = true := by
        simpa using List.find?_some hfound
      rw [get?_noteAll hids a ha, if_pos hok]
      rfl
    | none =>
      -- a later attempt on the key has failed, if there is one at all
      refine Eq.trans ?_ (h.applied id)
      by_cases hmem : id ∈ later.map (·.delta.id)
      · obtain ⟨a, ha, rfl⟩ := List.mem_map.mp hmem
        have hfailed : ¬ a.succeeded = true := by
          simpa using List.find?_eq_none.mp hfound a (List.mem_reverse.mpr ha)
        rw [get?_noteAll hids a ha, if_neg hfailed]
      · exact get?_noteAll_of_not_mem hmem

/-- **All that a daemon remembers of its attempts.** -/
theorem Lived.remembers {k : Knowledge} {past : List Attempt} (h : Lived d k past) :
    Remembers k.applied past := by
  induction h with
  | begin => exact ⟨fun _ => rfl, fun _ => rfl⟩
  | @event k past _ e s ih =>
    rw [applied_reconcile]
    refine ih.noteAll ?_ fun a ha => ?_
    · rw [ids_attempts]
      exact nodup_eventDeltas k e
    · rw [mem_eventDeltas (d.delta_mem ha)]
  | @pass k past _ snapshot s ih =>
    have hids := nodup_passDeltas k.applied snapshot
    rw [d.fullPass_eq s hids]
    refine ih.noteAll ?_ fun a ha => ?_
    · rw [ids_attempts]
      exact hids
    · exact (mem_passDeltas.mp (d.delta_mem ha)).1

/-! ## 3. Nothing to do -/

/-- **An event is answered as `unchanged` exactly if its table is tracked and it leaves the row that
    the last attempt that succeeded has given its key.** The last attempt of all then has succeeded
    and given the key that row, or it has failed and was to change that row. -/
theorem reconcile_unchanged_iff {k : Knowledge} {past : List Attempt} (h : Lived d k past)
    (e : ChangeEvent) (s : σ) :
    ((d.reconcile e k s).value.2 = .unchanged ↔
      k.snapshot.tracks e.id.table = true ∧ e.leaves = lastApplied e.id past) ∧
    ((d.reconcile e k s).value.2 = .unchanged → ∀ a, lastOn e.id past = some a →
      (a.succeeded = true ∧ a.delta.new = e.leaves) ∨
      (a.succeeded = false ∧ a.delta.old = e.leaves)) := by
  have hiff := d.reconcile_eq_unchanged_iff k e s
  refine ⟨by rw [hiff, h.remembers.applied], fun hun a ha => ?_⟩
  have hrow := (hiff.mp hun).2
  rw [h.remembers.last, ha, Option.bind_some] at hrow
  unfold Attempt.known at hrow
  cases hok : a.succeeded with
  | true =>
    rw [if_pos hok] at hrow
    exact .inl ⟨rfl, hrow.symm⟩
  | false =>
    rw [if_neg (by simp [hok])] at hrow
    exact .inr ⟨rfl, hrow.symm⟩

/-- A host on which units can be enabled and disabled but not started. -/
def cannotStart : Host Unit where
  run c s := (.ok ⟨if c.argv.contains "start" then 1 else 0, "", ""⟩, s)
  writeFile _ _ s := (.ok (), s)
  removeFile _ s := (.ok (), s)

/-- A daemon on that host which runs the unit of every row. -/
def unitRunner : Daemon Unit where
  name := "unitrunner"
  tables := ["FEATURE"]
  registry := ⟨.ofList [("FEATURE", { plan := fun id _ new => .ok (
    if new.isEmpty then [.service id.key .stop, .service id.key .disable]
    else [.service id.key .enable, .service id.key .start]) })]⟩
  executor := ⟨cannotStart, {}, "unitrunner"⟩
  sink := none
  settings := LoopConfig.settings {}

/-- A row appears, and its unit cannot be started. -/
def rowAppears : ChangeEvent := .set ⟨"FEATURE", "ntp"⟩ (.ofList [("state", "enabled")])

/-- What the daemon knows when the row has appeared. -/
def knownThen : Knowledge := (unitRunner.reconcile rowAppears unitRunner.fresh ()).value.1

/-- The attempts of the daemon when the row has appeared. -/
def attemptsThen : List Attempt :=
  unitRunner.attempts .empty (eventDeltas unitRunner.fresh rowAppears) ()

theorem lived_rowAppears : Lived unitRunner knownThen attemptsThen := .event .begin rowAppears ()

/-- When the row is deleted again, there is nothing to do for the daemon; its unit stays enabled. -/
theorem unchanged_after_half_a_change :
    Lived unitRunner knownThen attemptsThen ∧
    (unitRunner.reconcile (.del rowAppears.id) knownThen ()).value.2 = .unchanged ∧
    ∃ a r, lastOn rowAppears.id attemptsThen = some a ∧ a.report = some r ∧
      r.reports.map (·.outcome) = [.success, .failed (.exit 1 "")] ∧ a.succeeded = false := by
  refine ⟨lived_rowAppears, by decide +kernel, ?_⟩
  have hplan : unitRunner.registry.plan ⟨rowAppears.id, none, rowAppears.leaves⟩ =
    .ok [.service "ntp" .enable, .service "ntp" .start] := by rfl
  have hattempts : attemptsThen = [⟨⟨rowAppears.id, none, rowAppears.leaves⟩,
      some (unitRunner.executor.runDelta ⟨⟨rowAppears.id, none, rowAppears.leaves⟩,
        [.service "ntp" .enable, .service "ntp" .start]⟩ ()).value⟩] :=
    unitRunner.attempts_of_planned hplan .empty ()
  rw [hattempts]
  exact ⟨_, _, rfl, rfl, rfl, rfl⟩

/-- The deletion takes back what the last attempt was to change. -/
theorem reconcile_unchanged_taken_back :
    Lived unitRunner knownThen attemptsThen ∧
    (unitRunner.reconcile (.del rowAppears.id) knownThen ()).value.2 = .unchanged ∧
    (knownThen.snapshot.tracks "FEATURE" = true ∧
      none = lastApplied rowAppears.id attemptsThen) ∧
    ∀ a, lastOn rowAppears.id attemptsThen = some a →
      (a.succeeded = true ∧ a.delta.new = none) ∨ (a.succeeded = false ∧ a.delta.old = none) := by
  have h := reconcile_unchanged_iff unitRunner lived_rowAppears (.del rowAppears.id) ()
  have hun : (unitRunner.reconcile (.del rowAppears.id) knownThen ()).value.2 = .unchanged := by
    decide +kernel
  exact ⟨lived_rowAppears, hun, h.1.mp hun, h.2 hun⟩

end Converge.Daemon
