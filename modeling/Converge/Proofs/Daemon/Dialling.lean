import Converge.Proofs.Daemon.LifeCycle

/-!
# Connecting, attempt by attempt

A daemon that connects makes one attempt after another. An attempt is one subscription and, if there is
one, one load behind it. While the store cannot be reached it pauses and tries again; every pause is a
wait of the schedule that begins anew with the connecting.

* `Backoff.delay?`: the waits of a schedule, by their numbers;
* `Feed.noted`: a store whose calls are noted with their answers; `Trial`: how an attempt went;
* `Dialling`: connecting among all that happens to the store, to the clock and to the daemon;
* `Stands`: where a daemon is that has made some attempts. `made_work`: a step of connecting goes from
  one such place to the next, and makes the calls of the attempt;
* **`connects_by_trials`**: what connecting has called and waited for at any moment, how it ends, and
  that it goes on otherwise.
-/

namespace Converge

open Store (SubId)

variable {σ : Type}

/-! ## 1. The waits of a schedule -/

namespace Backoff

/-- The schedule when some waits are over. -/
def skip? (b : Backoff) : Nat → Option Backoff
  | 0 => some b
  | n + 1 => (b.skip? n).bind fun b => b.next?.map (·.2)

/-- The wait of a number, counted from zero. -/
def delay? (b : Backoff) (n : Nat) : Option Duration :=
  (b.skip? n).bind fun b => b.next?.map (·.1)

/-- A schedule whose longest wait can be doubled never ends. -/
theorem next?_ne_none {b : Backoff} (hle : b.current ≤ b.max) (hmax : b.max.double? ≠ none) :
    b.next? ≠ none := by
  have hfits : 2 * b.max.nanos < Duration.limit := by
    by_contra hover
    exact hmax (if_neg hover)
  have hle : b.current.nanos ≤ b.max.nanos := hle
  have hdouble : b.current.double? = some ⟨2 * b.current.nanos⟩ :=
    if_pos ((Nat.mul_le_mul_left 2 hle).trans_lt hfits)
  unfold next?
  rw [hdouble]
  nofun

theorem next?_current_le {b b' : Backoff} {delay : Duration} (h : b.next? = some (delay, b')) :
    b'.current ≤ b'.max ∧ b'.max = b.max := by
  obtain ⟨twice, -, he⟩ := Option.map_eq_some_iff.mp h
  cases he
  refine ⟨?_, rfl⟩
  show Duration.min twice b.max ≤ b.max
  unfold Duration.min
  split
  · assumption
  · exact Nat.le_refl _

theorem start_current_le (initial max : Duration) :
    (start initial max).current ≤ (start initial max).max := by
  show initial ≤ Duration.max max initial
  unfold Duration.max
  split
  · exact Nat.le_refl _
  · rename_i h
    exact Nat.le_of_lt (Nat.lt_of_not_le h)

theorem skip?_current_le {b : Backoff} (hle : b.current ≤ b.max) : ∀ {n : Nat} {b' : Backoff},
    b.skip? n = some b' → b'.current ≤ b'.max ∧ b'.max = b.max
  | 0, b', h => by
    obtain rfl := Option.some.inj h
    exact ⟨hle, rfl⟩
  | n + 1, b', h => by
    obtain ⟨before, hbefore, hlast⟩ := Option.bind_eq_some_iff.mp h
    obtain ⟨⟨delay, _⟩, hnext, rfl⟩ := Option.map_eq_some_iff.mp hlast
    obtain ⟨hle', hmax⟩ := next?_current_le hnext
    exact ⟨hle', hmax.trans (skip?_current_le hle hbefore).2⟩

/-- All waits of a schedule whose longest wait can be doubled can be told. -/
theorem delay?_ne_none {b : Backoff} (hle : b.current ≤ b.max) (hmax : b.max.double? ≠ none)
    (n : Nat) : b.delay? n ≠ none := by
  have hskip : ∀ n, ∃ b', b.skip? n = some b' ∧ b'.next? ≠ none := by
    intro n
    induction n with
    | zero => exact ⟨b, rfl, next?_ne_none hle hmax⟩
    | succ n ih =>
      obtain ⟨before, hbefore, hnext⟩ := ih
      obtain ⟨next, hnext⟩ := Option.ne_none_iff_exists'.mp hnext
      have hthen : b.skip? (n + 1) = some next.2 := by
        rw [skip?, hbefore, Option.bind_some, hnext]
        rfl
      obtain ⟨hle', hmax'⟩ := skip?_current_le hle hthen
      exact ⟨next.2, hthen, next?_ne_none hle' (hmax' ▸ hmax)⟩
  obtain ⟨b', hb', hnext⟩ := hskip n
  rw [delay?, hb', Option.bind_some, Ne, Option.map_eq_none_iff]
  exact hnext

end Backoff

/-- The waits that a configuration can ask for are far below what the clock holds. -/
theorem LoopConfig.double?_ne_none (c : LoopConfig) :
    (Duration.max c.settings.backoffMax c.settings.backoffInitial).double? ≠ none := by
  have hmax := c.backoffMaxMs.toNat_lt
  have hinitial := c.backoffInitialMs.toNat_lt
  have hfits : ∀ ms : Nat, ms < 2 ^ 64 → 2 * (Duration.ofMillis ms).nanos < Duration.limit := by
    intro ms hms
    show 2 * (ms * 1000000) < 0x10000000000000000 * 1000000000
    omega
  have hlonger : 2 * (Duration.max c.settings.backoffMax c.settings.backoffInitial).nanos <
      Duration.limit := by
    unfold Duration.max
    split
    · exact hfits _ hinitial
    · exact hfits _ hmax
  unfold Duration.double?
  rw [if_pos hlonger]
  nofun

/-! ## 2. Calls and attempts -/

/-- A call to a store that is made to connect, with the answer. -/
inductive StoreCall where
  | subscribe (tables : List String) (answer : Except Error SubId)
  | load (tables : List String) (answer : Except Error Snapshot)

/-- The store with a list in which its calls are noted. -/
def Feed.noted (feed : Feed σ) : Feed (σ × List StoreCall) where
  subscribe tables s :=
    let (answer, host) := feed.subscribe tables s.1
    (answer, host, s.2 ++ [.subscribe tables answer])
  load tables s :=
    let (answer, host) := feed.load tables s.1
    (answer, host, s.2 ++ [.load tables answer])
  poll sub s :=
    let (answer, host) := feed.poll sub s.1
    (answer, host, s.2)
  release sub s := (feed.release sub s.1, s.2)

/-- How an attempt to connect went. -/
inductive Trial where
  /-- There was no subscription. -/
  | refused (e : Error)
  /-- There was a subscription, and the rows could not be read. -/
  | unread (sub : SubId) (e : Error)
  | read (sub : SubId) (snapshot : Snapshot)

namespace Trial

/-- The calls of an attempt. -/
def calls (tables : List String) : Trial → List StoreCall
  | .refused e => [.subscribe tables (.error e)]
  | .unread sub e => [.subscribe tables (.ok sub), .load tables (.error e)]
  | .read sub snapshot => [.subscribe tables (.ok sub), .load tables (.ok snapshot)]

/-- Why the attempt failed. -/
def error? : Trial → Option Error
  | .refused e | .unread _ e => some e
  | .read _ _ => none

/-- The store could not be reached. -/
def Unreached (t : Trial) : Prop := ∃ e, t.error? = some e ∧ e.isStoreUnavailable = true

end Trial

/-- The error is another one than that the store cannot be reached. -/
def Trial.FailsWith (t : Trial) (e : Error) : Prop :=
  t.error? = some e ∧ e.isStoreUnavailable = false

theorem Trial.Unreached.not_failsWith {t : Trial} (h : t.Unreached) (e : Error) :
    ¬ t.FailsWith e := by
  rintro ⟨herror, hother⟩
  obtain ⟨e', he', havailable⟩ := h
  obtain rfl := Option.some.inj (herror.symm.trans he')
  rw [havailable] at hother
  cases hother

theorem exists_failsWith_concat {past : List Trial} (hpast : ∀ t ∈ past, t.Unreached) (t : Trial)
    (e : Error) : (∃ t' ∈ past ++ [t], t'.FailsWith e) ↔ t.FailsWith e := by
  constructor
  · rintro ⟨t', ht', hfails⟩
    rcases List.mem_append.mp ht' with hold | hnew
    · exact absurd hfails ((hpast t' hold).not_failsWith e)
    · rwa [← List.mem_singleton.mp hnew]
  · exact fun hfails => ⟨t, List.mem_append_right _ (List.mem_singleton_self t), hfails⟩

/-- The error that was the answer. -/
def StoreCall.error? : StoreCall → Option Error
  | .subscribe _ (.error e) | .load _ (.error e) => some e
  | _ => none

/-- The call that fails is the last of its attempt. -/
theorem Trial.error?_eq (t : Trial) (tables : List String) :
    ∃ init last, t.calls tables = init ++ [last] ∧ last.error? = t.error? ∧
      ∀ call ∈ init, call.error? = none := by
  cases t with
  | refused e => exact ⟨[], _, rfl, rfl, nofun⟩
  | unread sub e => exact ⟨[.subscribe tables (.ok sub)], _, rfl, rfl, by simp [StoreCall.error?]⟩
  | read sub snapshot =>
    exact ⟨[.subscribe tables (.ok sub)], _, rfl, rfl, by simp [StoreCall.error?]⟩

/-! ## 3. Connecting among all that happens -/

/-- How connecting ended. -/
inductive DialEnd where
  | connected (sub : SubId) (snapshot : Snapshot)
  /-- It was asked to stop. -/
  | stopped
  | failed (e : Error)
  /-- A wait left the width of the clock. -/
  | overflowed

/-- Where connecting is. -/
inductive Place where
  | trying (dial : Dial)
  | finished (how : DialEnd)

/-- A daemon that connects to a store whose calls are noted. -/
structure Dialling (σ : Type) where
  place : Place
  scene : Scene (σ × List StoreCall)
  stopAsked : Bool

namespace Dialling

/-- The calls to the store, oldest first. -/
def calls (c : Dialling σ) : List StoreCall := c.scene.host.2

/-- Where a step leads to. -/
def land (c : Dialling σ) : DialStep (σ × List StoreCall) → Dialling σ
  | .next dial sc => { c with place := .trying dial, scene := sc }
  | .waits _ => c
  | .connected sub snapshot sc => { c with place := .finished (.connected sub snapshot), scene := sc }
  | .stopped sc => { c with place := .finished .stopped, scene := sc }
  | .failed e sc => { c with place := .finished (.failed e), scene := sc }
  | .overflowed sc => { c with place := .finished .overflowed, scene := sc }

variable (d : Daemon (σ × List StoreCall)) (feed : Feed σ)

/-- One step of connecting. -/
def work (c : Dialling σ) : Dialling σ :=
  match c.place with
  | .trying dial => c.land (dial.step d feed.noted c.stopAsked c.scene)
  | .finished _ => c

/-- What happens to the host does not touch what was noted. -/
def undergo (c : Dialling σ) : Happening σ → Dialling σ
  | .around host now => { c with scene := { c.scene with host := (host, c.calls), now } }
  | .askStop => { c with stopAsked := true }
  | .askResync => c
  | .work => c.work d feed

/-- Connecting when all this has happened, in order. -/
def after (c : Dialling σ) (hs : List (Happening σ)) : Dialling σ := hs.foldl (undergo d feed) c

/-- The beginning of connecting, anywhere; it may have been asked to stop before. -/
def begin (sc : Scene (σ × List StoreCall)) (stop : Bool) : Dialling σ :=
  ⟨.trying (.start d.settings), { sc with host := (sc.host.1, []) }, stop⟩

theorem after_concat (c : Dialling σ) (hs : List (Happening σ)) (x : Happening σ) :
    c.after d feed (hs ++ [x]) = (c.after d feed hs).undergo d feed x := List.foldl_concat ..

end Dialling

/-! ## 4. Where connecting is after some attempts -/

/-- The schedule of a daemon at its beginning. -/
def LoopSettings.backoff (s : LoopSettings) : Backoff := .start s.backoffInitial s.backoffMax

/-- Where connecting is when it has made these attempts, given whether it was asked to stop and what
    was seen last. -/
inductive Stands (s : LoopSettings) (asked : Bool) (last : Option Sight) : List Trial → Place → Prop where
  | attempting {past : List Trial} {b : Backoff} (hpast : ∀ t ∈ past, t.Unreached)
    (hb : s.backoff.skip? past.length = some b) : Stands s asked last past (.trying (.attempting b))
  | subscribed {past : List Trial} {b : Backoff} {sub : SubId} (hpast : ∀ t ∈ past, t.Unreached)
    (hb : s.backoff.skip? past.length = some b) : Stands s asked last past (.trying (.subscribed b sub))
  /-- The pause behind an attempt is as long as its number says, from the moment of the failure. -/
  | pausing {past : List Trial} {t : Trial} {b : Backoff} {delay failed : Duration} {a : StoreAccess}
    {e : Error} (hpast : ∀ t' ∈ past ++ [t], t'.Unreached)
    (hb : s.backoff.skip? (past.length + 1) = some b) (hdelay : s.backoff.delay? past.length = some delay)
    (herror : t.error? = some e) (hlast : last = some (.access a (some e) failed)) :
    Stands s asked last (past ++ [t]) (.trying (.pausing b (failed + delay)))
  | connected {past : List Trial} {sub : SubId} {snapshot : Snapshot}
    (hpast : ∀ t ∈ past, t.Unreached) :
    Stands s asked last (past ++ [.read sub snapshot]) (.finished (.connected sub snapshot))
  | stopped {past : List Trial} (hpast : ∀ t ∈ past, t.Unreached) (hasked : asked = true) :
    Stands s asked last past (.finished .stopped)
  | failed {past : List Trial} {t : Trial} {e : Error} (hpast : ∀ t' ∈ past, t'.Unreached)
    (herror : t.error? = some e) (hother : e.isStoreUnavailable = false) :
    Stands s asked last (past ++ [t]) (.finished (.failed e))
  /-- The wait behind the last attempt cannot be told. -/
  | overflowed {past : List Trial} {t : Trial} (hpast : ∀ t' ∈ past ++ [t], t'.Unreached)
    (hdelay : s.backoff.delay? past.length = none) :
    Stands s asked last (past ++ [t]) (.finished .overflowed)

/-- To be asked to stop changes nothing by itself. -/
theorem Stands.ask {s : LoopSettings} {asked : Bool} {last : Option Sight} {past : List Trial}
    {place : Place} (h : Stands s asked last past place) : Stands s true last past place := by
  cases h with
  | attempting hpast hb => exact .attempting hpast hb
  | subscribed hpast hb => exact .subscribed hpast hb
  | pausing hpast hb hdelay herror hlast => exact .pausing hpast hb hdelay herror hlast
  | connected hpast => exact .connected hpast
  | stopped hpast => exact .stopped hpast rfl
  | failed hpast herror hother => exact .failed hpast herror hother
  | overflowed hpast hdelay => exact .overflowed hpast hdelay

/-- **Connecting fails exactly at an attempt with another error** than that the store cannot be
    reached. -/
theorem Stands.failed_iff {s : LoopSettings} {asked : Bool} {last : Option Sight}
    {past : List Trial} {place : Place} (h : Stands s asked last past place) (e : Error) :
    place = .finished (.failed e) ↔ ∃ t ∈ past, t.FailsWith e := by
  have hnone : ∀ {past : List Trial}, (∀ t ∈ past, t.Unreached) → ¬ ∃ t ∈ past, t.FailsWith e :=
    fun hpast ⟨t, ht, hfails⟩ => (hpast t ht).not_failsWith e hfails
  cases h with
  | attempting hpast hb => exact ⟨nofun, fun hfails => absurd hfails (hnone hpast)⟩
  | subscribed hpast hb => exact ⟨nofun, fun hfails => absurd hfails (hnone hpast)⟩
  | pausing hpast hb hdelay herror hlast => exact ⟨nofun, fun hfails => absurd hfails (hnone hpast)⟩
  | stopped hpast => exact ⟨nofun, fun hfails => absurd hfails (hnone hpast)⟩
  | overflowed hpast hdelay => exact ⟨nofun, fun hfails => absurd hfails (hnone hpast)⟩
  | connected hpast =>
    rw [exists_failsWith_concat hpast]
    exact ⟨nofun, nofun⟩
  | failed hpast herror hother =>
    rw [exists_failsWith_concat hpast]
    constructor
    · intro he
      cases he
      exact ⟨herror, hother⟩
    · rintro ⟨he, -⟩
      rw [Option.some.inj (herror.symm.trans he)]

/-- The calls of an attempt that is not over. -/
def Place.opening (tables : List String) : Place → List StoreCall
  | .trying (.subscribed _ sub) => [.subscribe tables (.ok sub)]
  | _ => []

/-- The attempts that were made, with all calls. -/
def Dialling.Made (d : Daemon (σ × List StoreCall)) (c : Dialling σ) (past : List Trial) : Prop :=
  Stands d.settings c.stopAsked c.scene.seen.getLast? past c.place ∧
    c.calls = past.flatMap (Trial.calls d.tables) ++ c.place.opening d.tables

namespace Dialling

variable {d : Daemon (σ × List StoreCall)} {feed : Feed σ} {c : Dialling σ} {past : List Trial}

/-- The attempt has failed: connecting pauses, or it fails, or it cannot tell how long to wait. -/
theorem made_afterFailure {b : Backoff} {t : Trial} {e : Error} {a : StoreAccess}
    {sc : Scene (σ × List StoreCall)} (hpast : ∀ t ∈ past, t.Unreached)
    (hb : d.settings.backoff.skip? past.length = some b) (herror : t.error? = some e)
    (hlast : sc.seen.getLast? = some (.access a (some e) sc.now))
    (hcalls : sc.host.2 = (past ++ [t]).flatMap (Trial.calls d.tables)) :
    (c.land (Dial.afterFailure b e sc)).Made d (past ++ [t]) := by
  have hnone : sc.host.2 = (past ++ [t]).flatMap (Trial.calls d.tables) ++ [] := by
    rw [List.append_nil, hcalls]
  have hdelay : d.settings.backoff.delay? past.length = b.next?.map (·.1) := by
    rw [Backoff.delay?, hb, Option.bind_some]
  unfold Dial.afterFailure
  cases havailable : e.isStoreUnavailable with
  | false => exact ⟨.failed hpast herror havailable, hnone⟩
  | true =>
    have hall : ∀ t' ∈ past ++ [t], t'.Unreached := by
      intro t' ht'
      rcases List.mem_append.mp ht' with hold | hnew
      · exact hpast t' hold
      · rw [List.mem_singleton.mp hnew]
        exact ⟨e, herror, havailable⟩
    rw [if_pos rfl]
    cases hnext : b.next? with
    | none =>
      rw [hnext] at hdelay
      exact ⟨.overflowed hall hdelay, hnone⟩
    | some next =>
      rw [hnext] at hdelay
      have hskip : d.settings.backoff.skip? (past.length + 1) = some next.2 := by
        rw [Backoff.skip?, hb, Option.bind_some, hnext]
        rfl
      exact ⟨.pausing hall hskip hdelay herror hlast, hnone⟩

/-- What was seen last after an access. -/
theorem getLast?_accessed {α ρ : Type} (sc : Scene ρ) (a : StoreAccess) (r : Except Error α) (s : ρ) :
    (sc.accessed a r s).seen.getLast? = some (.access a (Scene.failure? r) sc.now) :=
  List.getLast?_concat

/-- The store is asked for a subscription, and the answer noted. -/
theorem subscribe_noted (sc : Scene (σ × List StoreCall)) (tables : List String) :
    sc.subscribe feed.noted tables =
      ((feed.subscribe tables sc.host.1).1,
        sc.accessed .subscribe (feed.subscribe tables sc.host.1).1
          ((feed.subscribe tables sc.host.1).2,
            sc.host.2 ++ [.subscribe tables (feed.subscribe tables sc.host.1).1])) := rfl

/-- The store is asked for the rows, and the answer noted. -/
theorem load_noted (sc : Scene (σ × List StoreCall)) (tables : List String) :
    sc.load feed.noted tables =
      ((feed.load tables sc.host.1).1,
        sc.accessed .load (feed.load tables sc.host.1).1
          ((feed.load tables sc.host.1).2,
            sc.host.2 ++ [.load tables (feed.load tables sc.host.1).1])) := rfl

theorem made_attempting {b : Backoff} (hplace : c.place = .trying (.attempting b))
    (h : c.Made d past) : ∃ past', (c.work d feed).Made d past' := by
  obtain ⟨place, sc, stop⟩ := c
  obtain rfl : place = .trying (.attempting b) := hplace
  obtain ⟨hstands, hcalls⟩ := h
  have hcalls : sc.host.2 = past.flatMap (Trial.calls d.tables) := hcalls.trans (List.append_nil _)
  cases hstands with
  | attempting hpast hb =>
    unfold work
    dsimp only [Dial.step]
    split_ifs with hstop
    · exact ⟨past, .stopped hpast hstop, hcalls.trans (List.append_nil _).symm⟩
    · rw [subscribe_noted]
      cases (feed.subscribe d.tables sc.host.1).1 with
      | ok sub =>
        refine ⟨past, .subscribed hpast hb, ?_⟩
        show sc.host.2 ++ [_] = _
        rw [hcalls]
        rfl
      | error e =>
        refine ⟨past ++ [.refused e], made_afterFailure hpast hb rfl (getLast?_accessed ..) ?_⟩
        show sc.host.2 ++ [_] = _
        rw [hcalls, List.flatMap_append]
        rfl

theorem made_subscribed {b : Backoff} {sub : SubId} (hplace : c.place = .trying (.subscribed b sub))
    (h : c.Made d past) : ∃ past', (c.work d feed).Made d past' := by
  obtain ⟨place, sc, stop⟩ := c
  obtain rfl : place = .trying (.subscribed b sub) := hplace
  obtain ⟨hstands, hcalls⟩ := h
  have hcalls : sc.host.2 =
      past.flatMap (Trial.calls d.tables) ++ [.subscribe d.tables (.ok sub)] := hcalls
  cases hstands with
  | subscribed hpast hb =>
    unfold work
    dsimp only [Dial.step]
    rw [load_noted]
    cases (feed.load d.tables sc.host.1).1 with
    | ok snapshot =>
      refine ⟨past ++ [.read sub snapshot], .connected hpast, ?_⟩
      show sc.host.2 ++ [_] = _ ++ []
      rw [hcalls, List.flatMap_append, List.append_nil, List.append_assoc]
      rfl
    | error e =>
      refine ⟨past ++ [.unread sub e], made_afterFailure hpast hb rfl (getLast?_accessed ..) ?_⟩
      show sc.host.2 ++ [_] = _
      rw [hcalls, List.flatMap_append, List.append_assoc]
      rfl

theorem made_pausing {b : Backoff} {moment : Duration}
    (hplace : c.place = .trying (.pausing b moment)) (h : c.Made d past) :
    ∃ past', (c.work d feed).Made d past' := by
  obtain ⟨place, sc, stop⟩ := c
  obtain rfl : place = .trying (.pausing b moment) := hplace
  obtain ⟨hstands, hcalls⟩ := h
  refine ⟨past, ?_⟩
  cases hstands with
  | pausing hpast hb hdelay herror hlast =>
    unfold work
    dsimp only [Dial.step]
    split_ifs with hstop hnow
    · exact ⟨.stopped hpast hstop, hcalls⟩
    · refine ⟨.attempting hpast ?_, hcalls⟩
      rw [List.length_append]
      exact hb
    · exact ⟨.pausing hpast hb hdelay herror hlast, hcalls⟩

/-- **A step of connecting** goes from one place to the next, and makes the calls of an attempt. -/
theorem made_work (h : c.Made d past) : ∃ past', (c.work d feed).Made d past' := by
  cases hplace : c.place with
  | finished how =>
    refine ⟨past, ?_⟩
    unfold work
    rw [hplace]
    exact h
  | trying dial =>
    cases dial with
    | attempting b => exact made_attempting hplace h
    | subscribed b sub => exact made_subscribed hplace h
    | pausing b moment => exact made_pausing hplace h

theorem made_undergo (h : c.Made d past) (x : Happening σ) :
    ∃ past', (c.undergo d feed x).Made d past' := by
  cases x with
  | around host now => exact ⟨past, h⟩
  | askStop => exact ⟨past, h.1.ask, h.2⟩
  | askResync => exact ⟨past, h⟩
  | work => exact made_work h

theorem made_after (d : Daemon (σ × List StoreCall)) (feed : Feed σ)
    (sc : Scene (σ × List StoreCall)) (stop : Bool) (hs : List (Happening σ)) :
    ∃ past, ((begin d sc stop).after d feed hs).Made d past := by
  induction hs using List.reverseRecOn with
  | nil => exact ⟨[], .attempting nofun rfl, rfl⟩
  | append_singleton hs x ih =>
    obtain ⟨past, hmade⟩ := ih
    rw [after_concat]
    exact made_undergo hmade x

/-! ## 5. What is asked, and what follows -/

theorem stopAsked_work (c : Dialling σ) : (c.work d feed).stopAsked = c.stopAsked := by
  unfold work
  split
  · unfold land
    split <;> rfl
  · rfl

theorem stopAsked_undergo {x : Happening σ} :
    (c.undergo d feed x).stopAsked = true ↔ c.stopAsked = true ∨ x = .askStop := by
  cases x with
  | work =>
    show (c.work d feed).stopAsked = true ↔ _
    rw [stopAsked_work]
    simp
  | around host now => simp [undergo]
  | askStop => simp [undergo]
  | askResync => simp [undergo]

theorem stopAsked_after {hs : List (Happening σ)} :
    (c.after d feed hs).stopAsked = true ↔ c.stopAsked = true ∨ .askStop ∈ hs := by
  induction hs using List.reverseRecOn with
  | nil => simp [after]
  | append_singleton hs x ih =>
    rw [after_concat, stopAsked_undergo, ih, List.mem_append, List.mem_singleton, or_assoc,
      eq_comm (a := x)]

/-- The errors that were answered are those of the attempts. -/
theorem Made.mem_calls (h : c.Made d past) {e : Error} :
    (∃ call ∈ c.calls, call.error? = some e) ↔ ∃ t ∈ past, t.error? = some e := by
  have hopening : ∀ call ∈ c.place.opening d.tables, call.error? = none := by
    unfold Place.opening
    split
    · simp [StoreCall.error?]
    · nofun
  rw [h.2]
  constructor
  · rintro ⟨call, hcall, herror⟩
    rcases List.mem_append.mp hcall with hcall | hcall
    · obtain ⟨t, ht, hcall⟩ := List.mem_flatMap.mp hcall
      obtain ⟨init, last, hcalls, hlast, hinit⟩ := t.error?_eq d.tables
      rw [hcalls] at hcall
      rcases List.mem_append.mp hcall with hcall | hcall
      · rw [hinit call hcall] at herror
        cases herror
      · rw [List.mem_singleton.mp hcall, hlast] at herror
        exact ⟨t, ht, herror⟩
    · rw [hopening call hcall] at herror
      cases herror
  · rintro ⟨t, ht, herror⟩
    obtain ⟨init, last, hcalls, hlast, -⟩ := t.error?_eq d.tables
    refine ⟨last, List.mem_append_left _ (List.mem_flatMap.mpr ⟨t, ht, ?_⟩), hlast.trans herror⟩
    rw [hcalls]
    exact List.mem_append_right _ (List.mem_singleton_self _)

theorem Made.failed_iff (h : c.Made d past) (e : Error) :
    c.place = .finished (.failed e) ↔
      (∃ call ∈ c.calls, call.error? = some e) ∧ e.isStoreUnavailable = false := by
  rw [h.mem_calls, h.1.failed_iff e]
  simp only [Trial.FailsWith, ← and_assoc, exists_and_right]

/-- Between two attempts nothing is done before the moment that ends the pause, -/
theorem work_of_early {b : Backoff} {moment : Duration}
    (hplace : c.place = .trying (.pausing b moment)) (hstop : c.stopAsked = false)
    (hearly : ¬ moment ≤ c.scene.now) : c.work d feed = c := by
  unfold work
  rw [hplace, hstop]
  dsimp only [Dial.step]
  rw [if_neg Bool.false_ne_true, if_neg hearly]
  rfl

/-- and then the next attempt is due. -/
theorem work_of_due {b : Backoff} {moment : Duration}
    (hplace : c.place = .trying (.pausing b moment)) (hstop : c.stopAsked = false)
    (hnow : moment ≤ c.scene.now) : c.work d feed = { c with place := .trying (.attempting b) } := by
  have hstep : Dial.step d feed.noted c.stopAsked (.pausing b moment) c.scene =
      .next (.attempting b) c.scene := by
    dsimp only [Dial.step]
    rw [hstop, if_neg Bool.false_ne_true, if_pos hnow]
  unfold work
  rw [hplace]
  exact congrArg c.land hstep

/-- A daemon that was asked to stop does so before it makes an attempt and while it pauses. -/
theorem work_of_asked {dial : Dial} (hplace : c.place = .trying dial) (hasks : dial.asks = true)
    (hstop : c.stopAsked = true) : (c.work d feed).place = .finished .stopped := by
  have hstep : dial.step d feed.noted c.stopAsked c.scene = .stopped c.scene := by
    cases dial with
    | attempting b => exact if_pos hstop
    | subscribed b sub => cases hasks
    | pausing b moment => exact if_pos hstop
  unfold work
  rw [hplace]
  exact congrArg (fun step => (c.land step).place) hstep

/-- A failure makes no call. -/
theorem calls_afterFailure (b : Backoff) (e : Error) (sc : Scene (σ × List StoreCall)) :
    (c.land (Dial.afterFailure b e sc)).calls = sc.host.2 := by
  rcases Dial.afterFailure_cases b e sc with ⟨b', moment, ha⟩ | ha | ha
  all_goals
    rw [ha]
    rfl

theorem calls_work_attempting {b : Backoff} (hplace : c.place = .trying (.attempting b))
    (hstop : c.stopAsked = false) :
    (c.work d feed).calls =
      c.calls ++ [.subscribe d.tables (feed.subscribe d.tables c.scene.host.1).1] := by
  unfold work
  rw [hplace, hstop]
  dsimp only [Dial.step]
  rw [if_neg Bool.false_ne_true, subscribe_noted]
  cases (feed.subscribe d.tables c.scene.host.1).1 with
  | ok sub => rfl
  | error e => exact calls_afterFailure b e _

/-- The rows are asked for even by a daemon that was asked to stop. -/
theorem calls_work_subscribed {b : Backoff} {sub : SubId}
    (hplace : c.place = .trying (.subscribed b sub)) :
    (c.work d feed).calls =
      c.calls ++ [.load d.tables (feed.load d.tables c.scene.host.1).1] := by
  unfold work
  rw [hplace]
  dsimp only [Dial.step]
  rw [load_noted]
  cases (feed.load d.tables c.scene.host.1).1 with
  | ok snapshot => rfl
  | error e => exact calls_afterFailure b e _

/-! ## 6. Connecting -/

/-- All that is said of a daemon that connects. `c` is where it is when `hs` has happened. -/
structure ConnectsByTrials (d : Daemon (σ × List StoreCall)) (feed : Feed σ) (stop : Bool)
    (hs : List (Happening σ)) (c : Dialling σ) : Prop where
  /-- It has made attempts with their calls and pauses, and stands where they lead to. -/
  made : ∃ past, c.Made d past
  /-- It knows that it was asked to stop if it was. -/
  asked : c.stopAsked = true ↔ stop = true ∨ .askStop ∈ hs
  /-- It fails with an answer that is another error, and then only. -/
  failed_iff : ∀ e, c.place = .finished (.failed e) ↔
    (∃ call ∈ c.calls, call.error? = some e) ∧ e.isStoreUnavailable = false
  /-- Without being asked to stop it is not over before it is connected, as long as the store just
      cannot be reached and the waits can be told, -/
  goes_on : c.stopAsked = false →
    (∀ call ∈ c.calls, ∀ e, call.error? = some e → e.isStoreUnavailable = true) →
      (∃ dial, c.place = .trying dial) ∨
        (∃ sub snapshot, c.place = .finished (.connected sub snapshot)) ∨
        c.place = .finished .overflowed
  /-- which is so with the settings of any configuration. -/
  in_time : ∀ config : LoopConfig, d.settings = config.settings → c.place ≠ .finished .overflowed
  /-- It pauses until the moment that ends the pause, -/
  pauses : ∀ b moment, c.place = .trying (.pausing b moment) → c.stopAsked = false →
    ¬ moment ≤ c.scene.now → c.work d feed = c
  /-- and then the next attempt is due, -/
  due : ∀ b moment, c.place = .trying (.pausing b moment) → c.stopAsked = false →
    moment ≤ c.scene.now → c.work d feed = { c with place := .trying (.attempting b) }
  /-- which begins with a subscription -/
  subscribes : ∀ b, c.place = .trying (.attempting b) → c.stopAsked = false →
    (c.work d feed).calls =
      c.calls ++ [.subscribe d.tables (feed.subscribe d.tables c.scene.host.1).1]
  /-- and, if there is one, goes on with a load. -/
  loads : ∀ b sub, c.place = .trying (.subscribed b sub) →
    (c.work d feed).calls = c.calls ++ [.load d.tables (feed.load d.tables c.scene.host.1).1]
  /-- When it was asked to stop, it makes no further attempt. -/
  stops : ∀ dial, c.place = .trying dial → dial.asks = true → c.stopAsked = true →
    (c.work d feed).place = .finished .stopped

theorem Made.goes_on (h : c.Made d past) (hstop : c.stopAsked = false)
    (hcalls : ∀ call ∈ c.calls, ∀ e, call.error? = some e → e.isStoreUnavailable = true) :
    (∃ dial, c.place = .trying dial) ∨
      (∃ sub snapshot, c.place = .finished (.connected sub snapshot)) ∨
      c.place = .finished .overflowed := by
  cases hplace : c.place with
  | trying dial => exact .inl ⟨dial, rfl⟩
  | finished how =>
    cases how with
    | connected sub snapshot => exact .inr (.inl ⟨sub, snapshot, rfl⟩)
    | overflowed => exact .inr (.inr rfl)
    | failed e =>
      obtain ⟨⟨call, hcall, herror⟩, hother⟩ := (h.failed_iff e).mp hplace
      rw [hcalls call hcall e herror] at hother
      cases hother
    | stopped =>
      have hstands := h.1
      rw [hplace] at hstands
      cases hstands with
      | stopped hpast hasked =>
        rw [hstop] at hasked
        cases hasked

/-- The waits of a configuration can always be told. -/
theorem Made.in_time (h : c.Made d past) {config : LoopConfig}
    (hconfig : d.settings = config.settings) : c.place ≠ .finished .overflowed := by
  intro hplace
  have hstands := h.1
  rw [hplace] at hstands
  cases hstands with
  | overflowed hpast hdelay =>
    rw [hconfig] at hdelay
    exact Backoff.delay?_ne_none (Backoff.start_current_le _ _) config.double?_ne_none _ hdelay

/-- **Connecting, attempt by attempt**, whatever the store answers and whatever happens meanwhile. -/
theorem connects_by_trials (d : Daemon (σ × List StoreCall)) (feed : Feed σ)
    (sc : Scene (σ × List StoreCall)) (stop : Bool) (hs : List (Happening σ)) :
    ConnectsByTrials d feed stop hs ((begin d sc stop).after d feed hs) := by
  obtain ⟨past, hmade⟩ := made_after d feed sc stop hs
  exact {
    made := ⟨past, hmade⟩
    asked := stopAsked_after
    failed_iff := hmade.failed_iff
    goes_on := hmade.goes_on
    in_time := fun _ hconfig => hmade.in_time hconfig
    pauses := fun _ _ hplace hstop hearly => work_of_early hplace hstop hearly
    due := fun _ _ hplace hstop hnow => work_of_due hplace hstop hnow
    subscribes := fun _ hplace hstop => calls_work_attempting hplace hstop
    loads := fun _ _ hplace => calls_work_subscribed hplace
    stops := fun _ hplace hasks hstop => work_of_asked hplace hasks hstop }

end Dialling

end Converge
