import Mathlib.Data.List.Infix
import Converge.Proofs.Daemon.Views
import Converge.Proofs.Daemon.Waits

/-!
# What the clock can hold

A daemon counts three moments ahead: the end of a pause before the next attempt to connect, the end of a
wait for an event, and the next unasked reading. The first two always fit the clock. The third need not:
settings are accepted whatever the time between two unasked readings is.

* `Duration.Early`: the clock has not come half its way;
* `nextReading_eq_none_iff`, `later?_selectTimeout`: the moments that a configuration asks for, on an
  early clock;
* `Dial.Advances`: all that a step of connecting can be, on schedule; no pause leaves the clock's width;
* `Loop.Plans`: the next step is one that counts to the next unasked reading. `overflowed_undergo`: only
  such a step can leave the clock's width, and `overflowed_after`: a run does so exactly if it comes to
  such a step too late;
* **`overflows_by_reading_only`**: so it is for all settings. `first_reading_overflows` are accepted
  settings with which the first such step is too late.
-/

namespace Converge

variable {σ : Type}

/-! ## 1. Moments ahead -/

namespace Duration

/-- The clock has not come half its way. -/
def Early (now : Duration) : Prop := 2 * now.wholeSecs < clockLimit

instance (now : Duration) : Decidable now.Early := inferInstanceAs (Decidable (_ < _))

theorem wholeSecs_add_ofSecs (now : Duration) (secs : Nat) :
    (now + .ofSecs secs).wholeSecs = now.wholeSecs + secs := by
  show (now.nanos + secs * 1000000000) / 1000000000 = now.nanos / 1000000000 + secs
  exact Nat.add_mul_div_right _ _ (by decide)

end Duration

namespace LoopConfig

variable (c : LoopConfig)

/-- **The next unasked reading** leaves the clock exactly if the seconds do. -/
theorem nextReading_eq_none_iff {now : Duration} (hnow : now.Early) :
    nextReading c.settings now = none ↔
      clockLimit ≤ now.wholeSecs + c.resyncIntervalSecs.toNat := by
  have hsecs := now.wholeSecs_add_ofSecs c.resyncIntervalSecs.toNat
  have hearly : 2 * now.wholeSecs < clockLimit := hnow
  unfold nextReading settings
  by_cases hnever : c.resyncIntervalSecs = 0
  · rw [if_pos hnever, hnever]
    refine ⟨nofun, ?_⟩
    intro hlate
    simp only [UInt64.toNat_zero] at hlate
    omega
  · rw [if_neg hnever]
    dsimp only
    unfold later?
    rw [hsecs]
    by_cases hfits : now.wholeSecs + c.resyncIntervalSecs.toNat < clockLimit
    · rw [if_pos hfits]
      exact ⟨nofun, fun hlate => absurd hfits (Nat.not_lt.mpr hlate)⟩
    · rw [if_neg hfits]
      exact ⟨fun _ => Nat.le_of_not_lt hfits, fun _ => rfl⟩

/-- **The end of a wait for an event** fits the clock. -/
theorem later?_selectTimeout {now : Duration} (hnow : now.Early) :
    ∃ deadline, later? now c.settings.selectTimeout = some deadline := by
  have hms := c.selectTimeoutMs.toNat_lt
  have hearly : 2 * (now.nanos / 1000000000) < 0x8000000000000000 := hnow
  have hfits : (now + c.settings.selectTimeout).wholeSecs < clockLimit := by
    show (now.nanos + c.selectTimeoutMs.toNat * 1000000) / 1000000000 < 0x8000000000000000
    omega
  exact ⟨_, if_pos hfits⟩

/-- Twice the longest pause fits the clock. -/
theorem longest_fits : Duration.Representable
    ⟨2 * (Duration.max c.settings.backoffInitial c.settings.backoffMax).nanos⟩ := by
  have hinitial := c.backoffInitialMs.toNat_lt
  have hmax := c.backoffMaxMs.toNat_lt
  show 2 * (Duration.max c.settings.backoffInitial c.settings.backoffMax).nanos <
    0x10000000000000000 * 1000000000
  rw [Duration.nanos_max]
  show 2 * max (c.backoffInitialMs.toNat * 1000000) (c.backoffMaxMs.toNat * 1000000) < _
  omega

/-- The schedule of pauses when a number of them were told. -/
def pauses (n : Nat) : Backoff := .standing c.settings.backoffInitial c.settings.backoffMax n

end LoopConfig

/-! ## 2. Connecting -/

/-- The schedule of the pauses to come. -/
def Dial.schedule : Dial → Backoff
  | .attempting b | .subscribed b _ | .pausing b _ => b

/-- All that a step of connecting can be if it is on schedule: it takes no time, it stays on schedule,
    and no pause leaves the clock's width. -/
inductive Dial.Advances (c : LoopConfig) (sc : Scene σ) : DialStep σ → Prop where
  | next {dial : Dial} {sc' : Scene σ} {n : Nat} (h : dial.schedule = c.pauses n)
    (hnow : sc'.now = sc.now) : Advances c sc (.next dial sc')
  | waits (moment : Duration) : Advances c sc (.waits moment)
  | connected {sub : Store.SubId} {snapshot : Snapshot} {sc' : Scene σ} (hnow : sc'.now = sc.now) :
    Advances c sc (.connected sub snapshot sc')
  | stopped {sc' : Scene σ} (hnow : sc'.now = sc.now) : Advances c sc (.stopped sc')
  | failed (e : Error) {sc' : Scene σ} (hnow : sc'.now = sc.now) : Advances c sc (.failed e sc')

namespace Dial

variable {c : LoopConfig} {sc sc' : Scene σ}

theorem advances_afterFailure {n : Nat} (e : Error) (hnow : sc'.now = sc.now) :
    Advances c sc (afterFailure (c.pauses n) e sc') := by
  obtain ⟨delay, hnext⟩ : ∃ delay, (c.pauses n).next? = some (delay, c.pauses (n + 1)) :=
    ⟨_, Backoff.next?_standing c.longest_fits n⟩
  unfold afterFailure
  split
  · rw [hnext]
    have hschedule : (Dial.pausing (c.pauses (n + 1)) (sc'.now + delay)).schedule =
        c.pauses (n + 1) := rfl
    exact .next hschedule hnow
  · exact .failed e hnow

/-- **A step of connecting stays on schedule.** -/
theorem advances_step (d : Daemon σ) (feed : Feed σ) (stop : Bool) {dial : Dial} {n : Nat}
    (h : dial.schedule = c.pauses n) : Advances c sc (dial.step d feed stop sc) := by
  cases dial with
  | attempting b =>
    have hb : b = c.pauses n := h
    unfold step
    dsimp only
    split
    · exact .stopped rfl
    · have hnow : (sc.subscribe feed d.tables).2.now = sc.now := rfl
      generalize sc.subscribe feed d.tables = r at hnow ⊢
      obtain ⟨answer, sc'⟩ := r
      cases answer with
      | ok sub => exact .next h hnow
      | error e => exact hb ▸ advances_afterFailure e hnow
  | subscribed b sub =>
    obtain rfl : b = c.pauses n := h
    unfold step
    dsimp only
    have hnow : (sc.load feed d.tables).2.now = sc.now := rfl
    generalize sc.load feed d.tables = r at hnow ⊢
    obtain ⟨answer, sc'⟩ := r
    cases answer with
    | ok snapshot => exact .connected hnow
    | error e =>
      have hreleased : (sc'.release feed sub).now = sc.now := hnow
      exact advances_afterFailure e hreleased
  | pausing b moment =>
    unfold step
    dsimp only
    split
    · exact .stopped rfl
    · split
      · exact .next h rfl
      · exact .waits moment

end Dial

/-! ## 3. Steps of the loop -/

namespace Loop

variable {c : LoopConfig} {d : Daemon σ} {feed : Feed σ} {l l' : Loop σ}

/-- While it connects, the loop is on schedule. -/
def OnSchedule (c : LoopConfig) (l : Loop σ) : Prop :=
  ∀ dial, l.stage = .connecting dial → ∃ n, dial.schedule = c.pauses n

/-- The next step counts to the next unasked reading: behind the first full pass, and between two
    events if rows are to be read. -/
def Plans (l : Loop σ) : Prop :=
  match l.stage with
  | .loaded _ _ => True
  | .between _ due => l.stopAsked = false ∧
      (l.resyncAsked = true ∨ ∃ moment, due = some moment ∧ moment ≤ l.scene.now)
  | _ => False

/-- The time between two unasked readings no longer fits the clock. -/
def Late (c : LoopConfig) (l : Loop σ) : Prop :=
  clockLimit ≤ l.scene.now.wholeSecs + c.resyncIntervalSecs.toNat

/-- What a step is to the clock. -/
structure Ticks (c : LoopConfig) (l l' : Loop σ) : Prop where
  /-- It takes no time. -/
  now_eq : l'.scene.now = l.scene.now
  schedule : l'.OnSchedule c
  /-- It leaves the clock's width by adding too long a time, and by nothing else. -/
  overflowed_iff : ∀ what, l'.stage = .ended (.overflowed what) ↔
    what = .adding ∧ l.Plans ∧ l.Late c

/-- A step to a stage that has nothing to do with the clock. -/
theorem ticks_aside (hnow : l'.scene.now = l.scene.now) (hdial : ∀ dial, l'.stage ≠ .connecting dial)
    (hend : ∀ what, l'.stage ≠ .ended (.overflowed what)) (hplans : l.Plans → ¬ l.Late c) :
    l.Ticks c l' where
  now_eq := hnow
  schedule dial h := absurd h (hdial dial)
  overflowed_iff what := iff_of_false (hend what) fun h => hplans h.2.1 h.2.2

/-- A step that counts to the next reading too late. -/
theorem ticks_late (hnow : l'.scene.now = l.scene.now)
    (hend : l'.stage = .ended (.overflowed .adding)) (hplans : l.Plans) (hlate : l.Late c) :
    l.Ticks c l' where
  now_eq := hnow
  schedule dial h := by
    rw [hend] at h
    cases h
  overflowed_iff what := by
    rw [hend]
    constructor
    · intro hwhat
      cases hwhat
      exact ⟨rfl, hplans, hlate⟩
    · intro hlast
      rw [hlast.1]

theorem connecting_ticks {dial : Dial} (hl : l.OnSchedule c) (hstage : l.stage = .connecting dial)
    (h : l.step d feed = some l') : l.Ticks c l' := by
  obtain ⟨n, hn⟩ := hl dial hstage
  obtain ⟨stage, sc, stop, resync⟩ := l
  obtain rfl : stage = .connecting dial := hstage
  have hadvances : Dial.Advances c sc (dial.step d feed stop sc) :=
    Dial.advances_step d feed stop hn
  unfold Loop.step at h
  dsimp only at h
  generalize dial.step d feed stop sc = r at h hadvances
  cases hadvances with
  | next hschedule hnow =>
    cases h
    refine ⟨hnow, ?_, fun what => iff_of_false nofun fun h => h.2.1⟩
    intro dial' hdial
    cases hdial
    exact ⟨_, hschedule⟩
  | waits => cases h
  | connected hnow | stopped hnow | failed e hnow =>
    cases h
    exact ticks_aside hnow nofun nofun False.elim

theorem choose_ticks (hd : d.settings = c.settings) (hearly : l.scene.now.Early)
    {sub : Store.SubId} {due : Option Duration} (hstage : l.stage = .between sub due) :
    l.Ticks c (l.choose d feed sub due) := by
  obtain ⟨stage, sc, stop, resync⟩ := l
  obtain rfl : stage = .between sub due := hstage
  have hreading := c.nextReading_eq_none_iff hearly
  unfold choose
  dsimp only
  split_ifs with hstop hasked
  · refine ticks_aside rfl nofun nofun ?_
    intro hplans
    exact absurd hstop (Bool.eq_false_iff.mp hplans.1)
  · have hplans : Plans ⟨.between sub due, sc, stop, resync⟩ := by
      refine ⟨eq_false_of_ne_true hstop, (Bool.or_eq_true_iff.mp hasked).imp_right ?_⟩
      intro hdue
      cases due with
      | none => cases hdue
      | some moment => exact ⟨moment, rfl, of_decide_eq_true hdue⟩
    rw [hd]
    cases hnext : nextReading c.settings sc.now with
    | some due' =>
      refine ticks_aside rfl nofun nofun ?_
      intro _ hlate
      rw [hreading.mpr hlate] at hnext
      cases hnext
    | none => exact ticks_late rfl rfl hplans (hreading.mp hnext)
  · refine ticks_aside rfl nofun nofun ?_
    rintro ⟨-, hresync | ⟨moment, rfl, hmoment⟩⟩
    · exact absurd (Bool.or_eq_true_iff.mpr (.inl hresync)) hasked
    · exact absurd (Bool.or_eq_true_iff.mpr (.inr (decide_eq_true hmoment))) hasked

theorem reading_ticks {sub : Store.SubId} {due : Option Duration}
    (hstage : l.stage = .reading sub due) (h : l.step d feed = some l') : l.Ticks c l' := by
  obtain ⟨stage, sc, stop, resync⟩ := l
  obtain rfl : stage = .reading sub due := hstage
  have hnow : (sc.load feed d.tables).2.now = sc.now := rfl
  unfold Loop.step at h
  dsimp only at h
  generalize sc.load feed d.tables = r at h hnow
  obtain ⟨answer, sc'⟩ := r
  cases answer with
  | ok snapshot =>
    cases h
    exact ticks_aside hnow nofun nofun False.elim
  | error e =>
    dsimp only at h
    split at h
    · cases h
      exact ticks_aside hnow nofun nofun False.elim
    · cases h
      exact ticks_aside hnow nofun nofun False.elim

theorem hear_ticks {sub : Store.SubId} {due : Option Duration} {deadline : Duration}
    (hstage : l.stage = .polling sub due deadline)
    (h : l.hear d feed sub due deadline = some l') : l.Ticks c l' := by
  obtain ⟨stage, sc, stop, resync⟩ := l
  obtain rfl : stage = .polling sub due deadline := hstage
  unfold Loop.hear at h
  split at h
  · cases h
    exact ticks_aside rfl nofun nofun False.elim
  · cases h
    exact ticks_aside rfl nofun nofun False.elim
  · dsimp only at h
    split at h
    · cases h
      exact ticks_aside rfl nofun nofun False.elim
    · cases h
      exact ticks_aside rfl nofun nofun False.elim
  · split at h
    · cases h
      exact ticks_aside rfl nofun nofun False.elim
    · cases h

/-- **What a step of the loop is to the clock.** -/
theorem step_ticks (hd : d.settings = c.settings) (hearly : l.scene.now.Early)
    (hl : l.OnSchedule c) (h : l.step d feed = some l') : l.Ticks c l' := by
  obtain ⟨stage, sc, stop, resync⟩ := l
  cases stage with
  | begun =>
    cases h
    exact ticks_aside rfl nofun nofun False.elim
  | outside =>
    unfold Loop.step at h
    dsimp only at h
    split at h
    · cases h
      exact ticks_aside rfl nofun nofun False.elim
    · cases h
      refine ⟨rfl, ?_, fun what => iff_of_false nofun fun h => h.2.1⟩
      intro dial hdial
      cases hdial
      rw [hd]
      exact ⟨0, Backoff.start_eq _ _⟩
  | connecting dial => exact connecting_ticks hl rfl h
  | loaded sub snapshot =>
    have hnow : (((sc.pass d snapshot).2).enter .steady).now = sc.now := rfl
    have hreading := c.nextReading_eq_none_iff hearly
    unfold Loop.step at h
    dsimp only at h
    rw [hnow, hd] at h
    cases hnext : nextReading c.settings sc.now with
    | some due =>
      rw [hnext] at h
      cases h
      refine ticks_aside hnow nofun nofun ?_
      intro _ hlate
      rw [hreading.mpr hlate] at hnext
      cases hnext
    | none =>
      rw [hnext] at h
      cases h
      exact ticks_late hnow rfl trivial (hreading.mp hnext)
  | between sub due =>
    obtain rfl := Option.some.inj h
    exact choose_ticks hd hearly rfl
  | reading sub due => exact reading_ticks rfl h
  | reloaded sub due snapshot =>
    cases h
    exact ticks_aside rfl nofun nofun False.elim
  | listening sub due =>
    obtain ⟨deadline, hdeadline⟩ := c.later?_selectTimeout hearly
    unfold Loop.step at h
    dsimp only at h
    rw [hd, hdeadline] at h
    cases h
    exact ticks_aside rfl nofun nofun False.elim
  | polling sub due deadline => exact hear_ticks rfl h
  | received sub due e =>
    have hnow : (sc.meet d e).2.now = sc.now := by
      unfold Scene.meet
      cases Daemon.busyWith? sc.known e <;> rfl
    cases h
    exact ticks_aside hnow nofun nofun False.elim
  | ended how => cases h

end Loop

/-! ## 4. Among all that happens -/

/-- The clock is not set forward half its way. -/
def Happening.Early : Happening σ → Prop
  | .around _ now => now.Early
  | _ => True

namespace Loop

variable {c : LoopConfig} {d : Daemon σ} {feed : Feed σ} {l : Loop σ}

/-- On schedule, on an early clock. -/
structure Timely (c : LoopConfig) (l : Loop σ) : Prop where
  early : l.scene.now.Early
  schedule : l.OnSchedule c

theorem timely_begin {sc : Scene σ} (h : sc.now.Early) (stop resync : Bool) :
    (begin sc stop resync).Timely c := ⟨h, nofun⟩

theorem not_plans_of_step_eq_none (h : l.step d feed = none) : ¬ l.Plans := by
  unfold Plans
  rcases ended_or_waits h with ⟨how, hstage⟩ | hstage | hstage
  · rw [hstage]
    exact id
  · rw [hstage]
    exact id
  · rw [hstage]
    exact id

theorem timely_undergo (hd : d.settings = c.settings) (h : l.Timely c) {x : Happening σ}
    (hx : x.Early) : (l.undergo d feed x).Timely c := by
  cases x with
  | around host now => exact ⟨hx, h.schedule⟩
  | askStop | askResync => exact ⟨h.early, h.schedule⟩
  | work =>
    unfold undergo
    cases hs : l.step d feed with
    | none => exact h
    | some l' =>
      have hticks := step_ticks hd h.early h.schedule hs
      have hearly : l'.scene.now.Early := hticks.now_eq ▸ h.early
      exact ⟨hearly, hticks.schedule⟩

/-- **The clock's width is left by a step that counts to the next reading too late**, and by nothing
    else that may happen. -/
theorem overflowed_undergo (hd : d.settings = c.settings) (h : l.Timely c) (x : Happening σ)
    (what : TimeOverflow) : (l.undergo d feed x).stage = .ended (.overflowed what) ↔
      l.stage = .ended (.overflowed what) ∨
        (x = .work ∧ what = .adding ∧ l.Plans ∧ l.Late c) := by
  cases x with
  | around host now => simp [undergo]
  | askStop | askResync => simp [undergo]
  | work =>
    unfold undergo
    cases hs : l.step d feed with
    | none =>
      have hplans := not_plans_of_step_eq_none hs
      refine ⟨.inl, ?_⟩
      rintro (hended | ⟨-, -, hplanned, -⟩)
      · exact hended
      · exact absurd hplanned hplans
    | some l' =>
      have hgoes : l.stage ≠ .ended (.overflowed what) := by
        intro hended
        simp [Loop.step, hended] at hs
      refine ((step_ticks hd h.early h.schedule hs).overflowed_iff what).trans
        ⟨fun h => .inr ⟨rfl, h⟩, ?_⟩
      rintro (hended | ⟨-, hlate⟩)
      · exact absurd hended hgoes
      · exact hlate

theorem timely_after (hd : d.settings = c.settings) : ∀ {l : Loop σ} (hs : List (Happening σ)),
    l.Timely c → (∀ x ∈ hs, x.Early) → (l.after d feed hs).Timely c
  | _, [], h, _ => h
  | _, _ :: rest, h, hearly => by
    obtain ⟨hx, hrest⟩ := List.forall_mem_cons.mp hearly
    exact timely_after hd rest (timely_undergo hd h hx) hrest

/-- **A run leaves the clock's width** exactly if it comes to such a step. -/
theorem overflowed_after (hd : d.settings = c.settings) (h : l.Timely c)
    {what : TimeOverflow} (hgoes : l.stage ≠ .ended (.overflowed what)) (hs : List (Happening σ))
    (hearly : ∀ x ∈ hs, x.Early) :
    (l.after d feed hs).stage = .ended (.overflowed what) ↔ what = .adding ∧
      ∃ past, past ++ [.work] <+: hs ∧ (l.after d feed past).Plans ∧
        (l.after d feed past).Late c := by
  induction hs using List.reverseRecOn with
  | nil =>
    refine iff_of_false hgoes ?_
    rintro ⟨-, past, hpast, -⟩
    simp at hpast
  | append_singleton hs x ih =>
    have hbefore : ∀ x ∈ hs, x.Early := fun x hx => hearly x (List.mem_append_left _ hx)
    have hlast : (l.after d feed (hs ++ [x])).stage = .ended (.overflowed what) ↔
        (l.after d feed hs).stage = .ended (.overflowed what) ∨
        (x = .work ∧ what = .adding ∧ (l.after d feed hs).Plans ∧ (l.after d feed hs).Late c) := by
      rw [after_append]
      exact overflowed_undergo hd (timely_after hd hs h hbefore) x what
    rw [hlast, ih hbefore]
    constructor
    · rintro (⟨hwhat, past, hpast, hlate⟩ | ⟨rfl, hwhat, hlate⟩)
      · exact ⟨hwhat, past, hpast.trans (List.prefix_append _ _), hlate⟩
      · exact ⟨hwhat, hs, List.prefix_refl _, hlate⟩
    · rintro ⟨hwhat, past, hpast, hlate⟩
      rcases List.prefix_concat_iff.mp hpast with hall | hpast
      · obtain ⟨rfl, hx⟩ := List.append_inj' hall rfl
        obtain rfl := List.singleton_inj.mp hx
        exact .inr ⟨rfl, hwhat, hlate⟩
      · exact .inl ⟨hwhat, past, hpast, hlate⟩

end Loop

/-! ## 5. Accepted settings -/

/-- All that is said about the moments that a daemon with these settings counts to, in a run that began
    as `l` when `hs` has happened. -/
structure CommonConfig.Clocked (c : CommonConfig) (d : Daemon σ) (feed : Feed σ) (l : Loop σ)
    (hs : List (Happening σ)) : Prop where
  /-- The pauses between the attempts to connect can be doubled forever, -/
  doubled : ∀ n, (Backoff.start c.loop.settings.backoffInitial c.loop.settings.backoffMax).delay? n =
    some (Backoff.wait c.loop.settings.backoffInitial c.loop.settings.backoffMax n)
  /-- and a wait for an event ends at a moment that the clock holds. -/
  polled : ∀ now : Duration, now.Early →
    ∃ deadline, later? now c.loop.settings.selectTimeout = some deadline
  /-- So the run leaves the clock's width exactly if it takes a step that counts to the next unasked
      reading, at a time when that moment has no place on the clock; what breaks down is the adding. -/
  overflowed_iff : ∀ what, (l.after d feed hs).stage = .ended (.overflowed what) ↔ what = .adding ∧
    ∃ past, past ++ [.work] <+: hs ∧ (l.after d feed past).Plans ∧
      (l.after d feed past).Late c.loop
  /-- It never does if the time between two readings is at most half the clock's width, -/
  fits : 2 * c.loop.resyncIntervalSecs.toNat ≤ clockLimit →
    ∀ what, (l.after d feed hs).stage ≠ .ended (.overflowed what)
  /-- but no interval is refused. -/
  accepted : ∀ secs, { c with loop := { c.loop with resyncIntervalSecs := secs } }.validate = c.validate

/-- **Accepted settings and the clock**: of the three moments that a daemon counts to, that of the next
    unasked reading can leave the clock's width, and only that. -/
theorem overflows_by_reading_only (c : CommonConfig) {d : Daemon σ} (hd : d.settings = c.loop.settings)
    (feed : Feed σ) {sc : Scene σ} (hnow : sc.now.Early) (stop resync : Bool)
    {hs : List (Happening σ)} (hearly : ∀ x ∈ hs, x.Early) :
    c.Clocked d feed (.begin sc stop resync) hs := by
  have htimely : (Loop.begin sc stop resync).Timely c.loop := Loop.timely_begin hnow stop resync
  have hiff : ∀ what,
      ((Loop.begin sc stop resync).after d feed hs).stage = .ended (.overflowed what) ↔
        what = .adding ∧ ∃ past, past ++ [.work] <+: hs ∧
          ((Loop.begin sc stop resync).after d feed past).Plans ∧
          ((Loop.begin sc stop resync).after d feed past).Late c.loop := by
    intro what
    exact Loop.overflowed_after hd htimely nofun hs hearly
  exact {
    doubled := Backoff.delay?_start c.loop.longest_fits
    polled := fun _ hnow => c.loop.later?_selectTimeout hnow
    overflowed_iff := hiff
    fits := by
      -- too late a reading is one at half the clock's width, or beyond
      intro hfits what hended
      obtain ⟨-, past, hpast, -, hlate⟩ := (hiff what).mp hended
      have hbefore : ∀ x ∈ past, x.Early := by
        intro x hx
        exact hearly x (hpast.subset (List.mem_append_left _ hx))
      have hclock : 2 * ((Loop.begin sc stop resync).after d feed past).scene.now.wholeSecs <
          clockLimit := (Loop.timely_after hd past htimely hbefore).early
      have hlate : clockLimit ≤
          ((Loop.begin sc stop resync).after d feed past).scene.now.wholeSecs +
            c.loop.resyncIntervalSecs.toNat := hlate
      omega
    accepted := fun _ => rfl }

/-! ## 6. A reading with no place on the clock -/

section Viewer

/-- Settings with a time between two unasked readings. -/
def readingEvery (secs : UInt64) : CommonConfig := { loop := { resyncIntervalSecs := secs } }

/-- A daemon with such settings, before its first step. -/
def readerOf (c : CommonConfig) : Daemon (Site Unit) := { viewer with settings := c.loop.settings }

def readerLoop (c : CommonConfig) : Loop (Site Unit) :=
  .begin (Scene.start (readerOf c) ⟨(), {}⟩) false false

/-- Ten seconds less than the clock's width. -/
def longInterval : CommonConfig := readingEvery 0x7FFFFFFFFFFFFFF6

/-- The daemon connects and makes its first full pass. After twenty seconds it is asked to read all rows
    anew. -/
def askedLater : List (Happening (Site Unit)) :=
  List.replicate 5 .work ++ [.around ⟨(), {}⟩ (.ofSecs 20), .askResync, .work]

/-- The first reading has a place on the clock, the second one has not. -/
theorem overflows_by_reading_only_asked : longInterval.validate = .ok () ∧
    (readerOf longInterval).settings = longInterval.loop.settings ∧
    (readerLoop longInterval).scene.now.Early ∧ (∀ x ∈ askedLater, x.Early) ∧
    ((readerLoop longInterval).after (readerOf longInterval) Site.feed askedLater).stage =
      .ended (.overflowed .adding) ∧
    longInterval.Clocked (readerOf longInterval) Site.feed (readerLoop longInterval) askedLater := by
  have hnow : (Scene.start (readerOf longInterval) ⟨(), {}⟩).now.Early := by decide
  have hearly : ∀ x ∈ askedLater, x.Early := by
    intro x hx
    simp only [askedLater, List.replicate, List.cons_append, List.nil_append, List.mem_cons,
      List.not_mem_nil, or_false, or_self_left] at hx
    rcases hx with rfl | rfl | rfl | rfl
    · trivial
    · exact (by decide : (Duration.ofSecs 20).Early)
    · trivial
    · trivial
  exact ⟨by decide, rfl, hnow, hearly, by decide +kernel,
    overflows_by_reading_only longInterval rfl Site.feed hnow false false hearly⟩

/-- **Settings are accepted, and the daemon ends behind its first full pass.** -/
theorem first_reading_overflows : (readingEvery 18446744073709551615).validate = .ok () ∧
    ((readerLoop (readingEvery 18446744073709551615)).after
      (readerOf (readingEvery 18446744073709551615)) Site.feed (List.replicate 5 .work)).stage =
      .ended (.overflowed .adding) := by
  decide +kernel

end Viewer

end Converge
