import Converge.Proofs.Daemon.History

/-!
# What work on rows does to a part of the host

Actions change the host, and so does the publishing of status rows. Many parts of a host are out of
reach of every action; what work does to such a part is the publishing alone.

* `Keeps part f`: the work `f` leaves the part as it was. It holds of chains and batches on a host
  none of whose accesses touches the part (`keeps_executeBatch`);
* `Publishes d part pub`: no action touches the part, and publishing acts on it by `pub`;
* **`part_reconcile`**, **`part_fullPass`**: the part after an event or a full pass is the part before
  it with the attempts published one after another. A full pass publishes refused attempts first.
-/

namespace Converge

variable {σ α β γ : Type}

/-! ## 1. Work that leaves a part alone -/

/-- The work leaves a part of the host as it was. -/
def Keeps (part : σ → γ) (f : σ → Ran σ α) : Prop := ∀ s, part (f s).host = part s

/-- No access to the host touches the part. -/
structure Host.Keeps (h : Host σ) (part : σ → γ) : Prop where
  run : ∀ c s, part (h.run c s).2 = part s
  writeFile : ∀ path content s, part (h.writeFile path content s).2 = part s
  removeFile : ∀ path s, part (h.removeFile path s).2 = part s

namespace Keeps

variable {part : σ → γ}

theorem idle (a : α) : Keeps part (Ran.idle a) := fun _ => rfl

theorem andThen {f : σ → Ran σ α} {g : α → σ → Ran σ β} (hf : Keeps part f)
    (hg : ∀ a, Keeps part (g a)) : Keeps part fun s => (f s).andThen g := by
  intro s
  have hnext : part ((f s).andThen g).host = part (f s).host := hg (f s).value (f s).host
  rw [hnext, hf s]

end Keeps

namespace Executor

variable {ex : Executor σ} {part : σ → γ}

theorem keeps_apply (h : ex.host.Keeps part) (a : Action) : Keeps part (ex.apply a) := by
  intro s
  cases a with
  | service unit verb => exact h.run _ s
  | rule change spec => exact h.run _ s
  | managerReload => exact h.run _ s
  | writeFile path content => exact h.writeFile path content s
  | removeFile path => exact h.removeFile path s

theorem keeps_act (h : ex.host.Keeps part) (correlation : Option String) (spoiled : List String)
    (a : Action) : Keeps part (ex.act correlation spoiled a) := by
  intro s
  show part (ex.attempt spoiled a s).host = part s
  unfold attempt
  split
  · rfl
  · exact keeps_apply h a s

theorem keeps_runActions (h : ex.host.Keeps part) (correlation : Option String) :
    ∀ (spoiled : List String) (actions : List Action),
      Keeps part (ex.runActions correlation spoiled actions)
  | _, [] => .idle _
  | spoiled, a :: rest =>
    (keeps_act h correlation spoiled a).andThen fun _ =>
      (keeps_runActions h correlation _ rest).andThen fun _ => .idle _

theorem keeps_runDelta (h : ex.host.Keeps part) (p : PlannedDelta) : Keeps part (ex.runDelta p) :=
  (keeps_runActions h _ [] p.actions).andThen fun _ => .idle _

theorem keeps_runPlaces (h : ex.host.Keeps part) (planned : List PlannedDelta) :
    ∀ places : List Nat, Keeps part (ex.runPlaces planned places)
  | [] => .idle _
  | i :: rest => by
    intro s
    unfold runPlaces
    cases planned[i]? with
    | none => exact keeps_runPlaces h planned rest s
    | some p =>
      have hchain : Keeps part fun s => (ex.runDelta p s).andThen fun report s =>
          (ex.runPlaces planned rest s).andThen fun later s => .idle ((i, report) :: later) s :=
        (keeps_runDelta h p).andThen fun _ =>
          (keeps_runPlaces h planned rest).andThen fun _ => .idle _
      exact hchain s

/-- **A batch leaves alone what no access to the host touches.** -/
theorem keeps_executeBatch (h : ex.host.Keeps part) (planned : List PlannedDelta) :
    Keeps part (ex.executeBatch planned) :=
  (keeps_runPlaces h planned (schedule planned)).andThen fun _ => .idle _

end Executor

/-! ## 2. Publishing -/

/-- No action touches the part of the host, and publishing acts on it by `pub`. -/
structure Publishes (d : Daemon σ) (part : σ → γ) (pub : RowDelta → Bool → γ → γ) : Prop where
  host : d.executor.host.Keeps part
  publish : ∀ delta ok s, part (d.publish delta ok s) = pub delta ok (part s)

/-- The part after the publishing of attempts. -/
def publishAll (pub : RowDelta → Bool → γ → γ) (attempts : List Attempt) (c : γ) : γ :=
  attempts.foldl (fun c a => pub a.delta a.succeeded c) c

theorem publishAll_append (pub : RowDelta → Bool → γ → γ) (first later : List Attempt) (c : γ) :
    publishAll pub (first ++ later) c = publishAll pub later (publishAll pub first c) :=
  List.foldl_append

/-- Attempts in the order in which a full pass publishes them. -/
def refusedFirst (attempts : List Attempt) : List Attempt :=
  attempts.filter (·.report.isNone) ++ attempts.filter (·.report.isSome)

theorem refusedFirst_perm (attempts : List Attempt) : (refusedFirst attempts).Perm attempts := by
  have hnot : attempts.filter (·.report.isSome) = attempts.filter fun a => !a.report.isNone :=
    List.filter_congr fun a _ => by cases a.report <;> rfl
  unfold refusedFirst
  rw [hnot]
  exact List.filter_append_perm _ attempts

namespace Daemon

variable {d : Daemon σ} {part : σ → γ} {pub : RowDelta → Bool → γ → γ}

theorem part_sortOut (h : Publishes d part pub) (cache : Cache) (deltas : List RowDelta) (s : σ) :
    part (d.sortOut cache deltas s).host =
      (deltas.filter fun delta => (d.planned? delta).isNone).foldl
        (fun c delta => pub delta false c) (part s) := by
  induction deltas generalizing s with
  | nil => rfl
  | cons delta rest ih =>
    unfold sortOut
    cases hplan : d.registry.plan delta with
    | ok actions =>
      have hp : ¬ (d.planned? delta).isNone = true := by
        unfold planned?
        rw [hplan]
        exact Bool.false_ne_true
      rw [List.filter_cons_of_neg (p := fun delta => (d.planned? delta).isNone) hp]
      exact ih s
    | error e =>
      have hp : (d.planned? delta).isNone = true := by
        unfold planned?
        rw [hplan]
        rfl
      rw [List.filter_cons_of_pos (p := fun delta => (d.planned? delta).isNone) hp,
        List.foldl_cons, ← h.publish]
      exact ih (d.publish delta false s)

theorem part_settle (h : Publishes d part pub) : ∀ (rows : List (RowDelta × DeltaReport))
    (cache : Cache) (s : σ), part (d.settle rows cache s).host =
      rows.foldl (fun c e => pub e.1 e.2.allSucceeded c) (part s)
  | [], _, _ => rfl
  | (delta, report) :: rest, cache, s => by
    rw [List.foldl_cons, ← h.publish]
    exact part_settle h rest (note cache delta report.allSucceeded)
      (d.publish delta report.allSucceeded s)

/-- Attempts without a report are those that the policy refuses. -/
theorem report_isNone_iff {cache : Cache} {deltas : List RowDelta} {s : σ}
    (hids : (deltas.map (·.id)).Nodup) {a : Attempt} (ha : a ∈ d.attempts cache deltas s) :
    a.report.isNone = (d.planned? a.delta).isNone := by
  unfold planned?
  cases hplan : d.registry.plan a.delta with
  | error e =>
    rw [d.report_of_refused ha hplan]
    rfl
  | ok actions =>
    obtain ⟨s', hreport⟩ := d.exists_report hids ha hplan
    rw [hreport]
    rfl

/-- The refused changes of a pass are those of its attempts without a report. -/
theorem refused_eq {cache : Cache} {deltas : List RowDelta} {s : σ}
    (hids : (deltas.map (·.id)).Nodup) :
    deltas.filter (fun delta => (d.planned? delta).isNone) =
      ((d.attempts cache deltas s).filter (·.report.isNone)).map (·.delta) := by
  have hfilter : (d.attempts cache deltas s).filter (·.report.isNone) =
      (d.attempts cache deltas s).filter fun a => (d.planned? a.delta).isNone :=
    List.filter_congr fun a ha => report_isNone_iff hids ha
  conv => lhs; rw [← d.deltas_attempts cache deltas s]
  rw [hfilter, List.filter_map]
  rfl

theorem foldl_reported (attempts : List Attempt) (c : γ) :
    (reported attempts).foldl (fun c e => pub e.1 e.2.allSucceeded c) c =
      publishAll pub (attempts.filter (·.report.isSome)) c := by
  unfold reported publishAll
  rw [List.foldl_filterMap, List.foldl_filter]
  congr 1
  funext c a
  obtain ⟨delta, report⟩ := a
  cases report <;> rfl

theorem foldl_refused (attempts : List Attempt) (c : γ) :
    ((attempts.filter (·.report.isNone)).map (·.delta)).foldl (fun c delta => pub delta false c) c =
      publishAll pub (attempts.filter (·.report.isNone)) c := by
  unfold publishAll
  rw [List.foldl_map, List.foldl_filter, List.foldl_filter]
  congr 1
  funext c a
  obtain ⟨delta, report⟩ := a
  cases report <;> rfl

/-- **A full pass publishes its attempts**, those first that were refused. -/
theorem part_fullPass (h : Publishes d part pub) (snapshot : Snapshot) (k : Knowledge) (s : σ) :
    part (d.fullPass snapshot k s).host =
      publishAll pub (refusedFirst (d.attempts k.applied (passDeltas k.applied snapshot) s))
        (part s) := by
  have hids := nodup_passDeltas k.applied snapshot
  let sorted := d.sortOut k.applied (passDeltas k.applied snapshot) s
  let batch := d.executor.executeBatch sorted.value.planned sorted.host
  have hpairs : (sorted.value.planned.map (·.delta)).zip batch.value =
      reported (d.attempts k.applied (passDeltas k.applied snapshot) s) := by
    rw [planned_sortOut]
    exact d.zip_passReports hids
  have hbatch : part batch.host = part sorted.host :=
    Executor.keeps_executeBatch h.host sorted.value.planned sorted.host
  show part (d.settle ((sorted.value.planned.map (·.delta)).zip batch.value) k.applied
    batch.host).host = _
  rw [part_settle h, hpairs, hbatch, part_sortOut h, refused_eq hids (s := s), foldl_reported,
    foldl_refused, ← publishAll_append]
  rfl

theorem part_work (h : Publishes d part pub) (delta : RowDelta) (cache : Cache) (s : σ) :
    part (d.work delta cache s).host = publishAll pub (d.attempts cache [delta] s) (part s) := by
  unfold work
  cases hplan : d.registry.plan delta with
  | error err =>
    rw [d.attempts_of_refused hplan]
    exact h.publish delta false s
  | ok actions =>
    rw [d.attempts_of_planned hplan]
    have hchain := Executor.keeps_runDelta h.host ⟨delta, actions⟩ s
    simp only [Executor.executeBatch_singleton, Ran.andThen_assoc, Ran.idle_andThen]
    show part (d.publish delta _ (d.executor.runDelta ⟨delta, actions⟩ s).host) = _
    rw [h.publish, hchain]
    rfl

/-- **An event publishes its attempt**, if it makes one. -/
theorem part_reconcile (h : Publishes d part pub) (k : Knowledge) (e : ChangeEvent) (s : σ) :
    part (d.reconcile e k s).host =
      publishAll pub (d.attempts k.applied (eventDeltas k e) s) (part s) := by
  unfold reconcile eventDeltas
  cases changeOf k e with
  | error err => rfl
  | ok change =>
    obtain ⟨snapshot, delta?⟩ := change
    cases delta? with
    | none => rfl
    | some delta => exact part_work h delta k.applied s

end Daemon

end Converge
