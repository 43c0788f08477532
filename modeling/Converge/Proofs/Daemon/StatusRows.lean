import Converge.Proofs.Daemon.Entries
import Converge.Proofs.Daemon.Site

/-!
# Status rows told by the attempts of the past

A daemon publishes a status row at the end of the work on a row, and at no other time. So a status
row says nothing about now: it says what there was to publish about the last attempt that had
something to publish.

* `Serves d v`: what a daemon comes to that publishes in a store which can be reached throughout and
  has no status row at the beginning. Between two pieces of work the machine may become anything, and
  others may change everything of the store but its status rows;
* `statusAfter`: a status row after attempts, and `status_publishAll`: publishing attempts makes it
  so, in whatever order if they are on different keys (`statusAfter_perm`);
* `lastWord`: the last attempt on a key with something to publish; **`Serves.status_told`**: the status
  row of a key is what was published about it;
* **`Serves.known_or_failed`**: after the first full pass a row is either as it was applied, or the
  last attempt on its key was to make it so and has failed.
-/

namespace Converge

open Store (Memory)

/-! ## 1. Publishing in a store that can be reached -/

section Announcing

variable {r : Registry}

/-- What there is to publish about an attempt. -/
def Attempt.word (r : Registry) (a : Attempt) : Option (Option Row) :=
  r.announcement a.delta a.succeeded

theorem disconnected_publishIn (r : Registry) (delta : RowDelta) (ok : Bool) (m : Memory) :
    (publishIn r delta ok m).disconnected = m.disconnected := by
  show (publishIn r delta ok m).config.disconnected = m.config.disconnected
  rw [config_publishIn]

/-- **An announcement counts at its own key and leaves the others alone.** -/
theorem status_publishIn {m : Memory} (hup : m.disconnected = false) (delta : RowDelta) (ok : Bool)
    (id : RowKey) : (publishIn r delta ok m).status.get? id =
      if delta.id = id then (r.announcement delta ok).getD (m.status.get? id)
      else m.status.get? id := by
  have hset (row : Row) : (m.setStatus delta.id row).2.status = m.status.insert delta.id row := by
    unfold Memory.setStatus
    rw [if_neg (by simp [hup])]
  have hclear : (m.clearStatus delta.id).2.status = m.status.erase delta.id := by
    unfold Memory.clearStatus
    rw [if_neg (by simp [hup])]
  unfold publishIn
  match r.announcement delta ok with
  | none => simp
  | some none =>
    show (m.clearStatus delta.id).2.status.get? id = _
    rw [hclear, SortedMap.get?_erase]
    simp [eq_comm]
  | some (some row) =>
    show (m.setStatus delta.id row).2.status.get? id = _
    rw [hset, SortedMap.get?_insert]
    simp [eq_comm]

/-- The status row of a key after attempts, given the one before them. -/
def statusAfter (r : Registry) (id : RowKey) (attempts : List Attempt) (row : Option Row) :
    Option Row :=
  attempts.foldl (fun row a => if a.delta.id = id then (a.word r).getD row else row) row

theorem statusAfter_append (r : Registry) (id : RowKey) (first later : List Attempt)
    (row : Option Row) : statusAfter r id (first ++ later) row =
      statusAfter r id later (statusAfter r id first row) :=
  List.foldl_append

/-- Attempts on different keys may be published in any order. -/
theorem statusAfter_perm {attempts attempts' : List Attempt} (hp : attempts.Perm attempts')
    (hids : (attempts.map (·.delta.id)).Nodup) (r : Registry) (id : RowKey) (row : Option Row) :
    statusAfter r id attempts row = statusAfter r id attempts' row := by
  refine hp.foldl_eq' (fun a ha b hb row => ?_) row
  by_cases hai : a.delta.id = id
  · by_cases hbi : b.delta.id = id
    · rw [List.inj_on_of_nodup_map hids ha hb (hai.trans hbi.symm)]
    · rw [if_neg hbi, if_neg hbi]
  · rw [if_neg hai, if_neg hai]

/-- **Publishing attempts changes the status rows as `statusAfter` says.** -/
theorem status_publishAll : ∀ (attempts : List Attempt) {m : Memory}, m.disconnected = false →
    (publishAll (publishIn r) attempts m).disconnected = false ∧
    ∀ id, (publishAll (publishIn r) attempts m).status.get? id =
      statusAfter r id attempts (m.status.get? id)
  | [], _, hup => ⟨hup, fun _ => rfl⟩
  | a :: rest, m, hup => by
    have hup' : (publishIn r a.delta a.succeeded m).disconnected = false := by
      rw [disconnected_publishIn, hup]
    obtain ⟨hrest, hstatus⟩ := status_publishAll rest hup'
    refine ⟨hrest, fun id => ?_⟩
    show (publishAll (publishIn r) rest (publishIn r a.delta a.succeeded m)).status.get? id = _
    rw [hstatus, status_publishIn hup]
    rfl

/-! ## 2. The last word on a key -/

/-- The last attempt on a key about which there was something to publish. -/
def lastWord (r : Registry) (id : RowKey) (past : List Attempt) : Option Attempt :=
  past.reverse.find? fun a => a.delta.id = id && (a.word r).isSome

/-- **The status row is what was published about the last attempt that had something to publish.** -/
theorem statusAfter_eq (r : Registry) (id : RowKey) (past : List Attempt) :
    statusAfter r id past none = ((lastWord r id past).bind (Attempt.word r)).join := by
  induction past using List.reverseRecOn with
  | nil => rfl
  | append_singleton past a ih =>
    rw [statusAfter_append, ih]
    unfold lastWord
    rw [List.reverse_append, List.reverse_singleton, List.singleton_append, List.find?_cons]
    show (if a.delta.id = id then (a.word r).getD _ else _) = _
    by_cases hid : a.delta.id = id
    · cases hword : a.word r with
      | none => simp [hid]
      | some word => simp [hid, hword]
    · simp [hid]

/-- The last attempt that has something to publish and the last one that succeeded are the same if
    each is also of the other kind. -/
theorem eq_of_find?_eq {α : Type} {P Q : α → Bool} : ∀ {l : List α} {a b : α},
    l.find? P = some a → l.find? Q = some b → Q a = true → P b = true → a = b
  | x :: rest, a, b, ha, hb, hqa, hpb => by
    rw [List.find?_cons] at ha hb
    cases hp : P x with
    | true =>
      simp only [hp, Option.some.injEq] at ha
      subst ha
      simpa [hqa] using hb
    | false =>
      cases hq : Q x with
      | true =>
        simp only [hq, Option.some.injEq] at hb
        subst hb
        rw [hp] at hpb
        cases hpb
      | false =>
        simp only [hp] at ha
        simp only [hq] at hb
        exact eq_of_find?_eq ha hb hqa hpb

theorem lastWord_spec {id : RowKey} {past : List Attempt} {a : Attempt}
    (h : lastWord r id past = some a) :
    a ∈ past ∧ a.delta.id = id ∧ (a.word r).isSome = true := by
  have hmem := List.mem_reverse.mp (List.mem_of_find?_eq_some h)
  have hfound := List.find?_some h
  rw [Bool.and_eq_true, decide_eq_true_eq] at hfound
  exact ⟨hmem, hfound.1, hfound.2⟩

/-- Without a last word there was nothing to publish about any attempt on the key. -/
theorem word_eq_none_of_lastWord {id : RowKey} {past : List Attempt}
    (h : lastWord r id past = none) {a : Attempt} (ha : a ∈ past) (hid : a.delta.id = id) :
    a.word r = none := by
  have hnot := List.find?_eq_none.mp h a (List.mem_reverse.mpr ha)
  simpa [hid] using hnot

/-- The last attempt of all has the last word, if it has one. -/
theorem lastWord_of_lastOn {id : RowKey} {past : List Attempt} {a : Attempt}
    (h : Daemon.lastOn id past = some a) (hword : (a.word r).isSome = true) :
    lastWord r id past = some a := by
  unfold Daemon.lastOn at h
  unfold lastWord
  obtain ⟨hid, before, later, hsplit, hnot⟩ := List.find?_eq_some_iff_append.mp h
  refine List.find?_eq_some_iff_append.mpr ⟨by simp [of_decide_eq_true hid, hword], before, later,
    hsplit, fun b hb => ?_⟩
  have hother := hnot b hb
  simp only [Bool.not_eq_true', decide_eq_false_iff_not] at hother
  simp [hother]

/-- The last attempt on a key that succeeded. -/
def lastSuccess (id : RowKey) (past : List Attempt) : Option Attempt :=
  past.reverse.find? fun a => a.delta.id = id && a.succeeded

theorem lastApplied_eq (id : RowKey) (past : List Attempt) :
    Daemon.lastApplied id past = (lastSuccess id past).bind (·.delta.new) := rfl

theorem lastSuccess_spec {id : RowKey} {past : List Attempt} {b : Attempt}
    (h : lastSuccess id past = some b) : b ∈ past ∧ b.delta.id = id ∧ b.succeeded = true := by
  have hmem := List.mem_reverse.mp (List.mem_of_find?_eq_some h)
  have hfound := List.find?_some h
  rw [Bool.and_eq_true, decide_eq_true_eq] at hfound
  exact ⟨hmem, hfound.1, hfound.2⟩

/-- If the last word is of a success, the last attempt that succeeded has it, or has none. -/
theorem lastWord_eq_lastSuccess {id : RowKey} {past : List Attempt} {b : Attempt}
    (hb : lastSuccess id past = some b) (hword : (b.word r).isSome = true)
    (hlast : ∀ a, lastWord r id past = some a → a.succeeded = true) :
    lastWord r id past = some b := by
  obtain ⟨hmem, hid, -⟩ := lastSuccess_spec hb
  cases hl : lastWord r id past with
  | none =>
    rw [word_eq_none_of_lastWord hl hmem hid] at hword
    cases hword
  | some a =>
    obtain ⟨-, hida, -⟩ := lastWord_spec hl
    have hab : a = b := eq_of_find?_eq hl hb (by simp [hida, hlast a hl]) (by simp [hid, hword])
    rw [hab]

/-- A removal clears the status row, but only if it succeeded. -/
theorem word_of_removal {a : Attempt} (hnew : a.delta.new = none) :
    a.word r = if a.succeeded then some none else none := by
  unfold Attempt.word Registry.announcement
  rw [hnew]

/-- If the last attempt that succeeded left no row, or there was none, and the last word is of a
    success, then nothing is published any more. -/
theorem told_none_of_lastApplied {id : RowKey} {past : List Attempt}
    (hgone : Daemon.lastApplied id past = none)
    (hlast : ∀ a, lastWord r id past = some a → a.succeeded = true) :
    ((lastWord r id past).bind (Attempt.word r)).join = none := by
  cases hl : lastWord r id past with
  | none => rfl
  | some a =>
    obtain ⟨hmem, hid, -⟩ := lastWord_spec hl
    have hsome : (lastSuccess id past).isSome :=
      List.find?_isSome.mpr ⟨a, List.mem_reverse.mpr hmem, by simp [hid, hlast a hl]⟩
    obtain ⟨b, hb⟩ := Option.isSome_iff_exists.mp hsome
    -- the last attempt that succeeded is a removal, which has something to publish
    obtain ⟨-, -, ok⟩ := lastSuccess_spec hb
    have hnew : b.delta.new = none := by
      rwa [lastApplied_eq, hb, Option.bind_some] at hgone
    have hword : b.word r = some none := by
      rw [word_of_removal hnew, if_pos ok]
    have hlastb := lastWord_eq_lastSuccess hb (by rw [hword]; rfl) hlast
    rw [← hl, hlastb, Option.bind_some, hword]
    rfl

end Announcing

/-! ## 3. A daemon in service -/

/-- What a daemon has come to. -/
structure Served where
  known : Knowledge
  store : Memory
  past : List Attempt
  /-- There was a full pass. -/
  passed : Bool

namespace Served

variable {τ : Type}

/-- What a daemon comes to by an event, with the machine as it is then. -/
def meet (v : Served) (d : Daemon (Site τ)) (e : ChangeEvent) (t : τ) : Served :=
  let done := d.reconcile e v.known ⟨t, v.store⟩
  ⟨done.value.1, done.host.store,
    v.past ++ d.attempts v.known.applied (Daemon.eventDeltas v.known e) ⟨t, v.store⟩, v.passed⟩

/-- What a daemon comes to by a full pass. -/
def pass (v : Served) (d : Daemon (Site τ)) (snapshot : Snapshot) (t : τ) : Served :=
  let done := d.fullPass snapshot v.known ⟨t, v.store⟩
  ⟨done.value.1, done.host.store,
    v.past ++ d.attempts v.known.applied (passDeltas v.known.applied snapshot) ⟨t, v.store⟩, true⟩

end Served

namespace Daemon

variable {τ : Type} (d : Daemon (Site τ))

/-- What a daemon comes to whose store can be reached throughout and has no status row at first. -/
inductive Serves : Served → Prop where
  | begin {m : Memory} (hup : m.disconnected = false) (hempty : m.status = .empty) :
    Serves ⟨d.fresh, m, [], false⟩
  | event {v : Served} (h : Serves v) (e : ChangeEvent) (t : τ) : Serves (v.meet d e t)
  | pass {v : Served} (h : Serves v) (snapshot : Snapshot) (t : τ) : Serves (v.pass d snapshot t)
  /-- Others change the store, but no status row. -/
  | meanwhile {v : Served} (h : Serves v) {m : Memory} (hup : m.disconnected = false)
    (hstatus : m.status = v.store.status) : Serves { v with store := m }

variable {d}

theorem Serves.lived {v : Served} (h : Serves d v) : Lived d v.known v.past := by
  induction h with
  | begin => exact .begin
  | event _ e t ih => exact .event ih e _
  | pass _ snapshot t ih => exact .pass ih snapshot _
  | meanwhile _ _ _ ih => exact ih

/-- **The status row of every key is what the attempts of the past have published.** -/
theorem Serves.status_eq {h : Host τ} (hhost : d.executor.host = Site.host h)
    (hsink : d.sink = some Site.sink) {v : Served} (hv : Serves d v) :
    v.store.disconnected = false ∧
    ∀ id, v.store.status.get? id = statusAfter d.registry id v.past none := by
  have hpub := publishes_store hhost hsink
  induction hv with
  | begin hup hempty =>
    refine ⟨hup, fun id => ?_⟩
    rw [hempty]
    rfl
  | @event v _ e t ih =>
    obtain ⟨hup, hstatus⟩ := ih
    have hpart : (v.meet d e t).store = _ := part_reconcile hpub v.known e ⟨t, v.store⟩
    obtain ⟨hup', hstatus'⟩ := status_publishAll (r := d.registry)
      (d.attempts v.known.applied (eventDeltas v.known e) ⟨t, v.store⟩) hup
    refine ⟨?_, fun id => ?_⟩
    · rw [hpart]
      exact hup'
    · rw [hpart, Served.meet, statusAfter_append, ← hstatus]
      exact hstatus' id
  | @pass v _ snapshot t ih =>
    obtain ⟨hup, hstatus⟩ := ih
    have hpart : (v.pass d snapshot t).store = _ := part_fullPass hpub snapshot v.known ⟨t, v.store⟩
    have hids : ((refusedFirst (d.attempts v.known.applied (passDeltas v.known.applied snapshot)
        ⟨t, v.store⟩)).map (·.delta.id)).Nodup := by
      rw [((refusedFirst_perm _).map _).nodup_iff, ids_attempts]
      exact nodup_passDeltas _ _
    obtain ⟨hup', hstatus'⟩ := status_publishAll (r := d.registry)
      (refusedFirst (d.attempts v.known.applied (passDeltas v.known.applied snapshot)
        ⟨t, v.store⟩)) hup
    refine ⟨?_, fun id => ?_⟩
    · rw [hpart]
      exact hup'
    · rw [hpart, Served.pass, statusAfter_append, ← hstatus,
        ← statusAfter_perm (refusedFirst_perm _) hids d.registry id]
      exact hstatus' id
  | meanwhile _ hup hstatus' ih =>
    refine ⟨hup, fun id => ?_⟩
    rw [hstatus']
    exact ih.2 id

/-- **The status row of a key is what was published about its last word.** -/
theorem Serves.status_told {h : Host τ} (hhost : d.executor.host = Site.host h)
    (hsink : d.sink = some Site.sink) {v : Served} (hv : Serves d v) (id : RowKey) :
    v.store.status.get? id =
      ((lastWord d.registry id v.past).bind (Attempt.word d.registry)).join := by
  rw [(hv.status_eq hhost hsink).2, statusAfter_eq]

/-! ## 4. Rows that are not as they were applied -/

theorem lastOn_append (id : RowKey) (past later : List Attempt) :
    lastOn id (past ++ later) = (lastOn id later).or (lastOn id past) := by
  unfold lastOn
  rw [List.reverse_append, List.find?_append]

theorem lastOn_eq_none {id : RowKey} {attempts : List Attempt}
    (h : id ∉ attempts.map (·.delta.id)) : lastOn id attempts = none := by
  refine List.find?_eq_none.mpr fun a ha => ?_
  have hne : a.delta.id ≠ id := fun he =>
    h (he ▸ List.mem_map_of_mem (List.mem_reverse.mp ha))
  simpa using hne

/-- Of attempts on different keys, each is the last one on its key. -/
theorem lastOn_of_mem {attempts : List Attempt} (hids : (attempts.map (·.delta.id)).Nodup)
    {a : Attempt} (ha : a ∈ attempts) : lastOn a.delta.id attempts = some a := by
  have hfound : (lastOn a.delta.id attempts).isSome :=
    List.find?_isSome.mpr ⟨a, List.mem_reverse.mpr ha, decide_eq_true rfl⟩
  obtain ⟨b, hb⟩ := Option.isSome_iff_exists.mp hfound
  have hmem := List.mem_reverse.mp (List.mem_of_find?_eq_some hb)
  have hid : b.delta.id = a.delta.id := by simpa using List.find?_some hb
  rw [hb, List.inj_on_of_nodup_map hids hmem ha hid]

/-- The last attempt on a key was to make the row what it is, and has failed. -/
def FailedTo (new : Option Row) (id : RowKey) (past : List Attempt) : Prop :=
  ∃ a, lastOn id past = some a ∧ a.succeeded = false ∧ a.delta.new = new

/-- Attempts that lead to the rows of a snapshot: a key they are on has the row of the snapshot, or
    the last attempt on it has failed to give it that row. -/
theorem known_or_failed_of_mem {before after : Cache} {past attempts : List Attempt}
    {snapshot : Snapshot} (hids : (attempts.map (·.delta.id)).Nodup)
    (hspares : Spares before after attempts)
    (hnew : ∀ a ∈ attempts, a.delta.new = snapshot.row? a.delta.id) {id : RowKey}
    (hid : id ∈ attempts.map (·.delta.id)) :
    snapshot.row? id = after.get? id ∨ FailedTo (snapshot.row? id) id (past ++ attempts) := by
  obtain ⟨a, ha, rfl⟩ := List.mem_map.mp hid
  cases hok : a.succeeded with
  | true => exact .inl (by rw [hspares.noted a ha hok, hnew a ha])
  | false =>
    refine .inr ⟨a, ?_, hok, hnew a ha⟩
    rw [lastOn_append, lastOn_of_mem hids ha]
    rfl

/-- An event keeps apart what is as it was applied and what was tried in vain. -/
theorem known_or_failed_event {k : Knowledge} {past : List Attempt} {id : RowKey}
    (h : k.snapshot.row? id = k.applied.get? id ∨ FailedTo (k.snapshot.row? id) id past)
    (e : ChangeEvent) (s : Site τ) :
    (d.reconcile e k s).value.1.snapshot.row? id = (d.reconcile e k s).value.1.applied.get? id ∨
      FailedTo ((d.reconcile e k s).value.1.snapshot.row? id) id
        (past ++ d.attempts k.applied (eventDeltas k e) s) := by
  have hspares := d.spares_event k e s
  have hids : ((d.attempts k.applied (eventDeltas k e) s).map (·.delta.id)).Nodup := by
    rw [ids_attempts]
    exact nodup_eventDeltas k e
  by_cases hmem : id ∈ (d.attempts k.applied (eventDeltas k e) s).map (·.delta.id)
  · -- the event made an attempt on the key, so its table is tracked
    have hnew : ∀ a ∈ d.attempts k.applied (eventDeltas k e) s,
        a.delta.new = (d.reconcile e k s).value.1.snapshot.row? a.delta.id := by
      intro a ha
      have hdelta := mem_eventDeltas (d.delta_mem ha)
      have ht : k.snapshot.tracks e.id.table = true := by
        rcases changeOf_eq k e with ⟨-, err, hc⟩ | ⟨ht, -⟩
        · have hnone := d.delta_mem ha
          unfold eventDeltas at hnone
          rw [hc] at hnone
          cases hnone
        · exact ht
      rw [row?_reconcile, hdelta, if_pos ⟨rfl, ht⟩]
    exact known_or_failed_of_mem hids hspares hnew hmem
  · rw [hspares.others id hmem]
    have hlast : ∀ new, FailedTo new id past →
        FailedTo new id (past ++ d.attempts k.applied (eventDeltas k e) s) := by
      rintro new ⟨a, ha, hfailed, hanew⟩
      refine ⟨a, ?_, hfailed, hanew⟩
      rw [lastOn_append, lastOn_eq_none hmem, Option.none_or, ha]
    rw [row?_reconcile]
    by_cases hcase : id = e.id ∧ k.snapshot.tracks e.id.table = true
    · -- without an attempt the event leaves the applied row
      obtain ⟨rfl, ht⟩ := hcase
      rw [if_pos ⟨rfl, ht⟩]
      refine .inl ?_
      rcases changeOf_eq k e with ⟨hf, -⟩ | ⟨-, snapshot, hc⟩
      · rw [ht] at hf
        cases hf
      · by_cases hsame : k.applied.get? e.id = e.leaves
        · exact hsame.symm
        · refine absurd ?_ hmem
          rw [ids_attempts]
          unfold eventDeltas
          rw [hc, if_neg hsame]
          exact List.mem_singleton_self _
    · rw [if_neg hcase]
      exact h.imp_right (hlast _)

/-- **After the first full pass a row is as it was applied, or the last attempt on its key was to make
    it what it is and has failed.** -/
theorem Serves.known_or_failed {v : Served} (hv : Serves d v) (hpassed : v.passed = true)
    (id : RowKey) : v.known.snapshot.row? id = v.known.applied.get? id ∨
      FailedTo (v.known.snapshot.row? id) id v.past := by
  induction hv with
  | begin => cases hpassed
  | @event v _ e t ih => exact known_or_failed_event (ih hpassed) e ⟨t, v.store⟩
  | @pass v _ snapshot t _ =>
    have hids := nodup_passDeltas v.known.applied snapshot
    have hspares := d.spares_pass v.known snapshot ⟨t, v.store⟩
    have hsnapshot : (d.fullPass snapshot v.known ⟨t, v.store⟩).value.1.snapshot = snapshot := by
      rw [d.fullPass_eq _ hids]
    rw [← d.ids_attempts v.known.applied _ ⟨t, v.store⟩] at hids
    simp only [Served.pass, hsnapshot]
    by_cases hmem : id ∈ (d.attempts v.known.applied (passDeltas v.known.applied snapshot)
        ⟨t, v.store⟩).map (·.delta.id)
    · exact known_or_failed_of_mem hids hspares
        (fun a ha => (mem_passDeltas.mp (d.delta_mem ha)).2.1) hmem
    · refine .inl ?_
      rw [hspares.others id hmem]
      rw [ids_attempts, mem_ids_passDeltas, not_or, Option.not_isSome_iff_eq_none,
        Option.not_isSome_iff_eq_none] at hmem
      rw [hmem.1, hmem.2]
  | meanwhile _ _ _ ih => exact ih hpassed

end Daemon

end Converge
