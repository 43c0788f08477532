import Converge.Daemon.Scene
import Converge.Proofs.Daemon.Entries
import Converge.Proofs.Snapshot.Replay

/-!
# What is delivered to a daemon

Rows for a full pass and single events are delivered to a daemon one after another. Between two
deliveries everything around the daemon may become anything; only what it knows stays.

* `Takes d begun past sc`: a daemon that began in one scene has taken the deliveries `past` and is
  in another scene now;
* `delivered`: the snapshot that deliveries make, whoever takes them; `Takes.snapshot_eq`: it is the
  snapshot of the daemon. **`snapshot_told`**: so neither its policies nor its actions have a say in
  it, and an event on a table that is not tracked changes nothing at all;
* `InStep`: the row of a key is the applied one. Events on other keys keep it so;
* **`repeated_event_unchanged`**: an event that was done with is answered as `unchanged` when it
  comes again, in whatever form, and the scene stays as it is.
-/

namespace Converge

variable {σ : Type}

/-! ## 1. Deliveries -/

/-- What is delivered to a daemon. -/
inductive Delivery where
  /-- All rows, for a full pass. -/
  | rows (snapshot : Snapshot)
  | event (e : ChangeEvent)
deriving DecidableEq

/-- The daemon works on a delivery. -/
def Scene.take (sc : Scene σ) (d : Daemon σ) : Delivery → Scene σ
  | .rows snapshot => (sc.pass d snapshot).2
  | .event e => (sc.meet d e).2

/-- A daemon that began in a scene has taken deliveries, oldest first, and is in another one now. -/
inductive Takes (d : Daemon σ) (begun : Scene σ) : List Delivery → Scene σ → Prop where
  | begin : Takes d begun [] begun
  | take {past : List Delivery} {sc : Scene σ} (h : Takes d begun past sc) (x : Delivery) :
    Takes d begun (past ++ [x]) (sc.take d x)
  /-- Everything around the daemon becomes something else. -/
  | meanwhile {past : List Delivery} {sc : Scene σ} (h : Takes d begun past sc) (sc' : Scene σ)
    (hknown : sc'.known = sc.known) : Takes d begun past sc'

/-- The snapshot after a delivery. An event that cannot be applied is left out. -/
def Delivery.onto : Delivery → Snapshot → Snapshot
  | .rows snapshot, _ => snapshot
  | .event e, s =>
    match s.apply e with
    | .ok s' => s'
    | .error _ => s

/-- The snapshot after deliveries, oldest first. -/
def delivered (s : Snapshot) (past : List Delivery) : Snapshot :=
  past.foldl (fun s x => x.onto s) s

/-! ## 2. The work on one delivery -/

namespace Scene

variable {d : Daemon σ} {sc : Scene σ} {e : ChangeEvent}

/-- The work on an event is `reconcile`, whatever is said about it. -/
theorem meet_eq (d : Daemon σ) (sc : Scene σ) (e : ChangeEvent) :
    (sc.meet d e).1 = (d.reconcile e sc.known sc.host).value.2 ∧
    (sc.meet d e).2.known = (d.reconcile e sc.known sc.host).value.1 ∧
    (sc.meet d e).2.host = (d.reconcile e sc.known sc.host).host := by
  unfold meet
  cases Daemon.busyWith? sc.known e with
  | none => exact ⟨rfl, rfl, rfl⟩
  | some id => exact ⟨rfl, rfl, rfl⟩

/-- A full pass takes over its rows. -/
theorem snapshot_pass (d : Daemon σ) (sc : Scene σ) (snapshot : Snapshot) :
    (sc.pass d snapshot).2.known.snapshot = snapshot := by
  show (d.fullPass snapshot sc.known sc.host).value.1.snapshot = snapshot
  rw [d.fullPass_eq sc.host (Daemon.nodup_passDeltas sc.known.applied snapshot)]

/-- **The snapshot after a delivery is told by the delivery alone.** -/
theorem snapshot_take (d : Daemon σ) (sc : Scene σ) (x : Delivery) :
    (sc.take d x).known.snapshot = x.onto sc.known.snapshot := by
  cases x with
  | rows snapshot => exact snapshot_pass d sc snapshot
  | event e =>
    show (sc.meet d e).2.known.snapshot = _
    rw [(meet_eq d sc e).2.1]
    exact d.snapshot_reconcile sc.known e sc.host

/-- An event that means no change leaves nothing behind. -/
theorem meet_of_idle {outcome : EventOutcome} (hbusy : Daemon.busyWith? sc.known e = none)
    (hidle : d.reconcile e sc.known sc.host = .idle (sc.known, outcome) sc.host) :
    sc.meet d e = (outcome, sc) := by
  unfold meet
  simp only [hbusy, hidle]
  show (outcome, { sc with seen := sc.seen ++ [] }) = _
  rw [List.append_nil]

/-- **An event on a table that is not tracked is dropped and changes nothing at all.** -/
theorem meet_of_untracked (h : sc.known.snapshot.tracks e.id.table = false) :
    sc.meet d e = (.dropped, sc) := by
  rcases Daemon.changeOf_eq sc.known e with ⟨-, err, hc⟩ | ⟨ht, -⟩
  · refine meet_of_idle ?_ ?_
    · unfold Daemon.busyWith?
      rw [hc]
    · unfold Daemon.reconcile
      rw [hc]
  · rw [h] at ht
    cases ht

end Scene

/-! ## 3. The snapshot -/

/-- An event that can be applied is applied, and any other is left out. -/
theorem onto_event (s : Snapshot) (e : ChangeEvent) :
    (∃ next, s.apply e = .ok next ∧ (Delivery.event e).onto s = next) ∨
    (s.tracks e.id.table = false ∧ (Delivery.event e).onto s = s) := by
  cases ha : s.apply e with
  | ok next => exact .inl ⟨next, rfl, by simp only [Delivery.onto, ha]⟩
  | error err =>
    refine .inr ⟨eq_false_of_ne_true fun ht => ?_, by simp only [Delivery.onto, ha]⟩
    obtain ⟨next, hok⟩ := (s.apply_eq_ok_iff e).mpr ht
    rw [ha] at hok
    cases hok

theorem tracks_onto_event (s : Snapshot) (e : ChangeEvent) (t : String) :
    ((Delivery.event e).onto s).tracks t = s.tracks t := by
  rcases onto_event s e with ⟨next, ha, honto⟩ | ⟨-, honto⟩
  · rw [honto, Snapshot.tracks_apply ha]
  · rw [honto]

theorem delivered_append (s : Snapshot) (first later : List Delivery) :
    delivered s (first ++ later) = delivered (delivered s first) later :=
  List.foldl_append

/-- What was delivered before a full pass does not count any more. -/
theorem delivered_rows (s snapshot : Snapshot) (before later : List Delivery) :
    delivered s (before ++ .rows snapshot :: later) = delivered snapshot later := by
  rw [delivered_append]
  rfl

/-- **Events alone replay on the snapshot**, those on tables that it tracks. -/
theorem replay_tracked : ∀ (events : List ChangeEvent) (s : Snapshot),
    s.replay (events.filter fun e => s.tracks e.id.table) =
      .ok (delivered s (events.map .event))
  | [], _ => rfl
  | e :: rest, s => by
    have hlater : delivered s ((e :: rest).map .event) =
        delivered ((Delivery.event e).onto s) (rest.map .event) := rfl
    have ih := replay_tracked rest ((Delivery.event e).onto s)
    simp only [tracks_onto_event] at ih
    rw [hlater]
    rcases onto_event s e with ⟨next, ha, honto⟩ | ⟨ht, honto⟩
    · have ht : s.tracks e.id.table = true := (s.apply_eq_ok_iff e).mp ⟨next, ha⟩
      rw [List.filter_cons_of_pos (p := fun e : ChangeEvent => s.tracks e.id.table) ht]
      exact Snapshot.replay_cons_eq_ok.mpr ⟨next, ha, by rw [honto] at ih ⊢; exact ih⟩
    · rw [List.filter_cons_of_neg (p := fun e : ChangeEvent => s.tracks e.id.table) (by simp [ht])]
      rw [honto] at ih ⊢
      exact ih

section Told

variable {d : Daemon σ} {begun sc : Scene σ} {past : List Delivery}

/-- **The snapshot of a daemon is what was delivered.** -/
theorem Takes.snapshot_eq (h : Takes d begun past sc) :
    sc.known.snapshot = delivered begun.known.snapshot past := by
  induction h with
  | begin => rfl
  | take _ x ih =>
    rw [Scene.snapshot_take, ih, delivered_append]
    rfl
  | meanwhile _ sc' hknown ih => rw [hknown, ih]

/-- The tracked tables stay as long as only rows of these tables are delivered. -/
theorem tracks_delivered {tracked : String → Bool} : ∀ {past : List Delivery} {s : Snapshot},
    (∀ t, s.tracks t = tracked t) →
      (∀ snapshot, .rows snapshot ∈ past → ∀ t, snapshot.tracks t = tracked t) →
        ∀ t, (delivered s past).tracks t = tracked t
  | [], _, hs, _, t => hs t
  | x :: rest, s, hs, hrows, t => by
    have honto : ∀ t, (x.onto s).tracks t = tracked t := by
      intro t
      cases x with
      | rows snapshot => exact hrows snapshot List.mem_cons_self t
      | event e => rw [tracks_onto_event, hs]
    exact tracks_delivered honto
      (fun snapshot hmem => hrows snapshot (List.mem_cons_of_mem _ hmem)) t

/-- The snapshot of a daemon told by what was delivered to it. -/
structure SnapshotTold (d : Daemon σ) (begun : Scene σ) (past : List Delivery) (sc : Scene σ) :
    Prop where
  /-- The rows of the last full pass, and the later events replayed on them. -/
  since_pass : ∀ (before : List Delivery) (snapshot : Snapshot) (events : List ChangeEvent),
    past = before ++ .rows snapshot :: events.map .event →
      snapshot.replay (events.filter fun e => snapshot.tracks e.id.table) = .ok sc.known.snapshot
  /-- Before the first full pass the events are replayed on what was there at the beginning. -/
  since_begin : ∀ events : List ChangeEvent, past = events.map .event →
    begun.known.snapshot.replay (events.filter fun e => begun.known.snapshot.tracks e.id.table) =
      .ok sc.known.snapshot
  /-- Any other daemon on any other host comes to the same snapshot by the same deliveries, if it
      began with the same one or there was a full pass. -/
  alike : ∀ (τ : Type) (d' : Daemon τ) (begun' sc' : Scene τ), Takes d' begun' past sc' →
    (begun'.known.snapshot = begun.known.snapshot ∨ ∃ snapshot, .rows snapshot ∈ past) →
      sc'.known.snapshot = sc.known.snapshot
  /-- The tables of the daemon are tracked throughout if all full passes are over their rows. -/
  tracks : (∀ t, begun.known.snapshot.tracks t = d.tables.contains t) →
    (∀ snapshot, .rows snapshot ∈ past → ∀ t, snapshot.tracks t = d.tables.contains t) →
      ∀ t, sc.known.snapshot.tracks t = d.tables.contains t
  /-- An event on another table is dropped, and the scene stays as it is. -/
  untracked : ∀ e, sc.known.snapshot.tracks e.id.table = false → sc.meet d e = (.dropped, sc)

/-- **The snapshot of a daemon depends only on what was delivered to it**, whatever its policies
    answered and its actions did. -/
theorem snapshot_told (h : Takes d begun past sc) : SnapshotTold d begun past sc where
  since_pass before snapshot events hpast := by
    rw [h.snapshot_eq, hpast, delivered_rows]
    exact replay_tracked events snapshot
  since_begin events hpast := by
    rw [h.snapshot_eq, hpast]
    exact replay_tracked events begun.known.snapshot
  alike τ d' begun' sc' h' hcommon := by
    rw [h'.snapshot_eq, h.snapshot_eq]
    rcases hcommon with hbegun | ⟨snapshot, hmem⟩
    · rw [hbegun]
    · obtain ⟨before, later, rfl⟩ := List.append_of_mem hmem
      rw [delivered_rows, delivered_rows]
  tracks hbegun hrows t := by
    rw [h.snapshot_eq]
    exact tracks_delivered hbegun hrows t
  untracked e he := Scene.meet_of_untracked he

end Told

open Daemon (moodyRunner rowAppears rowChanges)

/-- One row, of a unit that is enabled. -/
def oneRow : Snapshot := ⟨.ofList [("FEATURE", .ofList [("ntp", .ofList [("state", "enabled")])])]⟩

/-- An event on a table that nobody tracks. -/
def elsewhere : ChangeEvent := .set ⟨"PORT", "Ethernet0"⟩ (.ofList [("mtu", "9100")])

/-- A full pass that succeeds, a change that fails, and an event on another table. -/
def threeDeliveries : List Delivery := [.rows oneRow, .event rowChanges, .event elsewhere]

/-- The daemon when the full pass has succeeded and its host is in the other mood. -/
def afterOneRow : Scene Bool :=
  { (Scene.start moodyRunner true).take moodyRunner (.rows oneRow) with host := false }

/-- The daemon when it has taken all of them. -/
def afterThree : Scene Bool :=
  (afterOneRow.take moodyRunner (.event rowChanges)).take moodyRunner (.event elsewhere)

/-- The snapshot has the changed row although the change has failed. -/
theorem snapshot_told_moody :
    Takes moodyRunner (.start moodyRunner true) threeDeliveries afterThree ∧
    SnapshotTold moodyRunner (.start moodyRunner true) threeDeliveries afterThree ∧
    afterThree.known.snapshot.row? rowChanges.id = some (.ofList [("state", "disabled")]) ∧
    afterThree.known.applied.get? rowChanges.id = some (.ofList [("state", "enabled")]) := by
  have htakes : Takes moodyRunner (.start moodyRunner true) threeDeliveries afterThree :=
    .take (.take (.meanwhile (.take .begin (.rows oneRow)) afterOneRow rfl) (.event rowChanges))
      (.event elsewhere)
  exact ⟨htakes, snapshot_told htakes, by decide +kernel, by decide +kernel⟩

/-! ## 4. Events that come again -/

section Again

variable {d : Daemon σ} {sc begun : Scene σ} {e : ChangeEvent}

/-- The row of a key is the applied one, and so it is left alone. -/
structure InStep (k : Knowledge) (id : RowKey) (row : Option Row) : Prop where
  tracked : k.snapshot.tracks id.table = true
  there : k.snapshot.row? id = row
  applied : k.applied.get? id = row

/-- **An event that leaves the row as it is and as it was applied changes nothing at all.** -/
theorem InStep.meet_eq (h : InStep sc.known e.id e.leaves) : sc.meet d e = (.unchanged, sc) := by
  obtain ⟨snapshot, ha⟩ := (Snapshot.apply_eq_ok_iff _ e).mpr h.tracked
  obtain rfl : snapshot = sc.known.snapshot := Snapshot.eq_of_apply ha h.there
  have hchange : Daemon.changeOf sc.known e = .ok (sc.known.snapshot, none) := by
    unfold Daemon.changeOf
    simp only [ha, h.there, h.applied, if_true]
  refine Scene.meet_of_idle ?_ ?_
  · unfold Daemon.busyWith?
    rw [hchange]
  · unfold Daemon.reconcile
    rw [hchange]

/-- So it is after an event that was unchanged, or all of whose actions succeeded. -/
theorem inStep_meet (ht : sc.known.snapshot.tracks e.id.table = true)
    (hdone : (sc.meet d e).1 = .unchanged ∨
      ∃ r, (sc.meet d e).1 = .applied r ∧ r.allSucceeded = true) :
    InStep (sc.meet d e).2.known e.id e.leaves := by
  obtain ⟨houtcome, hknown, -⟩ := Scene.meet_eq d sc e
  rw [houtcome] at hdone
  rw [hknown]
  refine ⟨?_, ?_, ?_⟩
  · rw [Daemon.tracks_reconcile]
    exact ht
  · rw [Daemon.row?_reconcile, if_pos ⟨rfl, ht⟩]
  · have hspares := d.spares_event sc.known e sc.host
    have htold := d.attempts_event sc.known e sc.host
    rcases hdone with hun | ⟨r, hr, hok⟩
    · -- there was no attempt, so the applied row is what it was
      rw [hun] at htold
      rw [hspares.others e.id (by rw [htold]; exact List.not_mem_nil)]
      exact ((d.reconcile_eq_unchanged_iff sc.known e sc.host).mp hun).2.symm
    · rw [hr] at htold
      exact hspares.noted ⟨⟨e.id, sc.known.applied.get? e.id, e.leaves⟩, some r⟩
        (by rw [htold]; exact List.mem_singleton_self _) hok

/-- An event on another key keeps it so. -/
theorem InStep.meet {id : RowKey} {row : Option Row} (h : InStep sc.known id row)
    (hne : e.id ≠ id) : InStep (sc.meet d e).2.known id row := by
  rw [(Scene.meet_eq d sc e).2.1]
  refine ⟨?_, ?_, ?_⟩
  · rw [Daemon.tracks_reconcile]
    exact h.tracked
  · rw [Daemon.row?_reconcile, if_neg fun hc => hne hc.1.symm]
    exact h.there
  · rw [Daemon.get?_reconcile_of_ne d sc.known e sc.host hne.symm]
    exact h.applied

/-- A delivery of an event on another key. -/
def Delivery.IsOther (id : RowKey) (x : Delivery) : Prop := ∃ e, x = .event e ∧ e.id ≠ id

/-- Any number of events on other keys keep it so. -/
theorem InStep.takes {id : RowKey} {row : Option Row} (hbegun : InStep begun.known id row)
    {past : List Delivery} (h : Takes d begun past sc) (hothers : ∀ x ∈ past, x.IsOther id) :
    InStep sc.known id row := by
  induction h with
  | begin => exact hbegun
  | take _ x ih =>
    obtain ⟨e, rfl, hne⟩ := hothers x (List.mem_append_right _ (List.mem_singleton_self _))
    exact (ih fun y hy => hothers y (List.mem_append_left _ hy)).meet hne
  | meanwhile _ sc' hknown ih =>
    rw [hknown]
    exact ih hothers

/-- **An event that was done with may come again**: after any number of events on other keys, every
    event that leaves the same row is answered as `unchanged`, and the scene stays as it is: what
    the daemon knows and has published, the host, and all that can be seen. -/
theorem repeated_event_unchanged (ht : sc.known.snapshot.tracks e.id.table = true)
    (hdone : (sc.meet d e).1 = .unchanged ∨
      ∃ r, (sc.meet d e).1 = .applied r ∧ r.allSucceeded = true)
    {others : List ChangeEvent} (hothers : ∀ e' ∈ others, e'.id ≠ e.id) {later : Scene σ}
    (h : Takes d (sc.meet d e).2 (others.map .event) later) {again : ChangeEvent}
    (hid : again.id = e.id) (hrow : again.leaves = e.leaves) :
    later.meet d again = (.unchanged, later) := by
  have hstep : InStep later.known e.id e.leaves := by
    refine (inStep_meet ht hdone).takes h fun x hx => ?_
    obtain ⟨e', he', rfl⟩ := List.mem_map.mp hx
    exact ⟨e', rfl, hothers e' he'⟩
  refine InStep.meet_eq ?_
  rw [hid, hrow]
  exact hstep

end Again

/-- A row on another key. -/
def otherAppears : ChangeEvent := .set ⟨"FEATURE", "lldp"⟩ (.ofList [("state", "enabled")])

/-- The daemon when a row was applied and the host is in the other mood. -/
def afterAppearance : Scene Bool :=
  { (Scene.start moodyRunner true).take moodyRunner (.event rowAppears) with host := false }

/-- The daemon when a row on another key could not be applied. -/
def afterOther : Scene Bool := afterAppearance.take moodyRunner (.event otherAppears)

/-- The event of the row that was applied comes again. -/
theorem repeated_event_unchanged_moody :
    ((Scene.start moodyRunner true).meet moodyRunner rowAppears).1 =
      .applied ⟨rowAppears.id, [⟨.service "ntp" .enable, .success⟩,
        ⟨.service "ntp" .start, .success⟩]⟩ ∧
    Takes moodyRunner ((Scene.start moodyRunner true).meet moodyRunner rowAppears).2
      [.event otherAppears] afterOther ∧
    afterOther.meet moodyRunner rowAppears = (.unchanged, afterOther) := by
  have happlied : ((Scene.start moodyRunner true).meet moodyRunner rowAppears).1 =
      .applied ⟨rowAppears.id, [⟨.service "ntp" .enable, .success⟩,
        ⟨.service "ntp" .start, .success⟩]⟩ := by decide +kernel
  have hmood : Takes moodyRunner ((Scene.start moodyRunner true).meet moodyRunner rowAppears).2
      [] afterAppearance := .meanwhile .begin afterAppearance rfl
  have htakes : Takes moodyRunner ((Scene.start moodyRunner true).meet moodyRunner rowAppears).2
      [.event otherAppears] afterOther := hmood.take (.event otherAppears)
  have hothers : ∀ e' ∈ [otherAppears], e'.id ≠ rowAppears.id := by decide
  exact ⟨happlied, htakes, repeated_event_unchanged (by decide +kernel)
    (.inr ⟨_, happlied, by decide⟩) hothers htakes rfl rfl⟩

end Converge
