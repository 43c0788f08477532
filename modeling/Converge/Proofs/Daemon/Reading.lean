import Converge.Proofs.Daemon.Following
import Converge.Proofs.Store.Uses

/-!
# What a step of the loop reads and what it leaves alone

A step of the loop is one access to the store, or the work on what an access has yielded.

* `Feed.Keeps`, `Daemon.LeavesAlone`: neither the accesses to the store nor the work on rows touch some
  part of the host;
* **`step_reads`**: a step of the loop leaves such a part as it was, and the rows that wait for their
  full pass after it are what a load yields;
* `leavesAlone_tables`: the stored rows are such a part for a daemon whose store stands beside its
  machine.
-/

namespace Converge

open Store (Memory SubId)

section Reading

variable {σ γ : Type} {d : Daemon σ} {feed : Feed σ} {part : σ → γ} {l l' : Loop σ}

/-- No access to the store touches the part of the host. -/
structure Feed.Keeps (feed : Feed σ) (part : σ → γ) : Prop where
  subscribe : ∀ tables s, part (feed.subscribe tables s).2 = part s
  load : ∀ tables s, part (feed.load tables s).2 = part s
  poll : ∀ sub s, part (feed.poll sub s).2 = part s
  release : ∀ sub s, part (feed.release sub s) = part s

/-- Neither the accesses of the daemon to its store nor its work on rows touch the part. -/
structure Daemon.LeavesAlone (d : Daemon σ) (feed : Feed σ) (part : σ → γ) : Prop where
  feed : feed.Keeps part
  take : ∀ (sc : Scene σ) (x : Delivery), part (sc.take d x).host = part sc.host

/-- A step of connecting left the part as it was, and what it has read is what a load yields. -/
def DialStep.Kept (part : σ → γ) (before : γ) (loaded : Except Error Snapshot) : DialStep σ → Prop
  | .next _ sc | .stopped sc | .failed _ sc | .overflowed sc => part sc.host = before
  | .waits _ => True
  | .connected _ snapshot sc => part sc.host = before ∧ loaded = .ok snapshot

theorem Dial.kept_afterFailure {sc : Scene σ} {before : γ} (h : part sc.host = before)
    (loaded : Except Error Snapshot) (backoff : Backoff) (e : Error) :
    (Dial.afterFailure backoff e sc).Kept part before loaded := by
  rcases Dial.afterFailure_cases backoff e sc with ⟨b, moment, ha⟩ | ha | ha
  all_goals
    rw [ha]
    exact h

theorem Dial.kept_step (h : feed.Keeps part) (stop : Bool) (dial : Dial) (sc : Scene σ) :
    (dial.step d feed stop sc).Kept part (part sc.host) (feed.load d.tables sc.host).1 := by
  cases dial with
  | attempting backoff =>
    have hkept : part (sc.subscribe feed d.tables).2.host = part sc.host := h.subscribe _ _
    unfold Dial.step
    dsimp only
    split_ifs with hstop
    · rfl
    · cases hs : sc.subscribe feed d.tables with
      | mk r sc' =>
        rw [hs] at hkept
        cases r with
        | ok sub => exact hkept
        | error e => exact Dial.kept_afterFailure hkept _ backoff e
  | subscribed backoff sub =>
    have hkept : part (sc.load feed d.tables).2.host = part sc.host := h.load _ _
    have hread : (sc.load feed d.tables).1 = (feed.load d.tables sc.host).1 := rfl
    unfold Dial.step
    dsimp only
    cases hs : sc.load feed d.tables with
    | mk r sc' =>
      rw [hs] at hkept hread
      cases r with
      | ok snapshot => exact ⟨hkept, hread.symm⟩
      | error e =>
        exact Dial.kept_afterFailure ((h.release sub sc'.host).trans hkept) _ backoff e
  | pausing backoff moment =>
    unfold Dial.step
    dsimp only
    split_ifs
    · rfl
    · rfl
    · trivial

/-- A step left a part of the host as it was, and the rows that wait for their full pass after it are
    what a load yields. -/
structure Reads (d : Daemon σ) (feed : Feed σ) (part : σ → γ) (l l' : Loop σ) : Prop where
  part : part l'.scene.host = part l.scene.host
  read : ∀ s, l'.stage.snapshot? = some s → (feed.load d.tables l.scene.host).1 = .ok s

/-- Nothing waits for a full pass after the step. -/
theorem reads_nothing (hpart : part l'.scene.host = part l.scene.host)
    (hnone : l'.stage.snapshot? = none) : Reads d feed part l l' :=
  ⟨hpart, fun s hs => by rw [hnone] at hs; cases hs⟩

theorem connecting_reads (h : feed.Keeps part) {dial : Dial} (hstage : l.stage = .connecting dial)
    (hstep : l.step d feed = some l') : Reads d feed part l l' := by
  have hkept := dial.kept_step (d := d) h l.stopAsked l.scene
  unfold Loop.step at hstep
  simp only [hstage] at hstep
  cases hdial : dial.step d feed l.stopAsked l.scene with
  | waits moment =>
    rw [hdial] at hstep
    cases hstep
  | connected sub snapshot sc =>
    rw [hdial] at hstep hkept
    cases hstep
    refine ⟨hkept.1, fun s hs => ?_⟩
    obtain rfl : snapshot = s := Option.some.inj hs
    exact hkept.2
  | next dial' sc | stopped sc | failed e sc | overflowed sc =>
    rw [hdial] at hstep hkept
    cases hstep
    exact reads_nothing hkept rfl

theorem choose_reads (h : feed.Keeps part) (sub : SubId) (due : Option Duration) :
    Reads d feed part l (l.choose d feed sub due) := by
  unfold Loop.choose
  dsimp only
  split_ifs with hstop
  · exact reads_nothing (h.release sub l.scene.host) rfl
  · cases nextReading d.settings l.scene.now with
    | some due => exact reads_nothing rfl rfl
    | none => exact reads_nothing (h.release sub l.scene.host) rfl
  · exact reads_nothing rfl rfl

theorem reading_reads (h : feed.Keeps part) {sub : SubId} {due : Option Duration}
    (hstage : l.stage = .reading sub due) (hstep : l.step d feed = some l') :
    Reads d feed part l l' := by
  have hkept : part (l.scene.load feed d.tables).2.host = part l.scene.host := h.load _ _
  have hread : (l.scene.load feed d.tables).1 = (feed.load d.tables l.scene.host).1 := rfl
  unfold Loop.step at hstep
  simp only [hstage] at hstep
  cases hs : l.scene.load feed d.tables with
  | mk r sc =>
    rw [hs] at hstep hkept hread
    cases r with
    | ok snapshot =>
      cases hstep
      refine ⟨hkept, fun s hs => ?_⟩
      obtain rfl : snapshot = s := Option.some.inj hs
      exact hread.symm
    | error e =>
      dsimp only at hstep
      split_ifs at hstep with hlost
      · cases hstep
        exact reads_nothing ((h.release sub sc.host).trans hkept) rfl
      · cases hstep
        exact reads_nothing hkept rfl

theorem hear_reads (h : feed.Keeps part) {sub : SubId} {due : Option Duration} {deadline : Duration}
    (hstep : l.hear d feed sub due deadline = some l') : Reads d feed part l l' := by
  have hkept := h.poll sub l.scene.host
  unfold Loop.hear at hstep
  cases hpoll : feed.poll sub l.scene.host with
  | mk answer s =>
    rw [hpoll] at hstep hkept
    cases answer with
    | none =>
      dsimp only at hstep
      split_ifs at hstep with hlate
      cases hstep
      exact reads_nothing hkept rfl
    | some polled =>
      cases polled with
      | nothing =>
        cases hstep
        exact reads_nothing hkept rfl
      | event e =>
        cases hstep
        exact reads_nothing hkept rfl
      | failed e =>
        dsimp only at hstep
        split_ifs at hstep with hlost
        · cases hstep
          exact reads_nothing ((h.release sub s).trans hkept) rfl
        · cases hstep
          exact reads_nothing hkept rfl

/-- **A step of the loop leaves alone what neither the accesses to the store nor the work on rows
    touch, and it reads what a load yields.** -/
theorem step_reads (h : d.LeavesAlone feed part) (hstep : l.step d feed = some l') :
    Reads d feed part l l' := by
  obtain ⟨stage, sc, stopAsked, resyncAsked⟩ := l
  cases stage with
  | begun =>
    cases hstep
    exact reads_nothing rfl rfl
  | outside =>
    unfold Loop.step at hstep
    dsimp only at hstep
    split_ifs at hstep <;> cases hstep <;> exact reads_nothing rfl rfl
  | connecting dial => exact connecting_reads h.feed rfl hstep
  | loaded sub snapshot =>
    have hpass := h.take sc (.rows snapshot)
    unfold Loop.step at hstep
    dsimp only at hstep
    split at hstep <;> cases hstep
    · exact reads_nothing hpass rfl
    · exact reads_nothing ((h.feed.release sub _).trans hpass) rfl
  | between sub due =>
    obtain rfl := Option.some.inj hstep
    exact choose_reads h.feed sub due
  | reading sub due => exact reading_reads h.feed rfl hstep
  | reloaded sub due snapshot =>
    cases hstep
    exact reads_nothing (h.take sc (.rows snapshot)) rfl
  | listening sub due =>
    unfold Loop.step at hstep
    dsimp only at hstep
    split at hstep <;> cases hstep
    · exact reads_nothing rfl rfl
    · exact reads_nothing (h.feed.release sub sc.host) rfl
  | polling sub due deadline => exact hear_reads h.feed hstep
  | received sub due e =>
    cases hstep
    exact reads_nothing (h.take sc (.event e)) rfl
  | ended how => cases hstep

end Reading

section Beside

variable {τ : Type} {d : Daemon (Site τ)} {h : Host τ}

theorem Site.keeps_feed : (Site.feed (τ := τ)).Keeps fun s => s.store.tables where
  subscribe tables s := s.store.tables_subscribe tables
  load tables s := s.store.tables_load tables
  poll sub s := s.store.tables_poll sub
  release _ _ := rfl

/-- A daemon does not touch the rows of its store. -/
theorem leavesAlone_tables (hhost : d.executor.host = Site.host h)
    (hsink : d.sink = none ∨ d.sink = some Site.sink) :
    d.LeavesAlone Site.feed fun s => s.store.tables where
  feed := Site.keeps_feed
  take sc x := by
    cases x with
    | rows snapshot =>
      have htables := congrArg Memory.tables (config_pass hhost hsink sc snapshot)
      exact htables
    | event e =>
      have htables := congrArg Memory.tables (config_meet hhost hsink sc e)
      exact htables

end Beside

end Converge
