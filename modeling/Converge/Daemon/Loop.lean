import Converge.Daemon.Connect

/-!
# The loop of a daemon

A daemon connects, makes a full pass and then follows its subscription, event by event. Losing the
store leads back to the beginning; a request to stop ends the loop between two steps of work. Rows
are read anew on request and at regular intervals.

* `Stage` says where the loop is, and `Loop.step` takes it one step further: one access to the
  store, one full pass or one event. Whoever changes the store, or asks the daemon to stop or to
  read anew, may do so between any two steps;
* `Loop.step` answers with nothing if the loop has ended or has to wait; `Loop.alarm?` is the
  moment at which a waiting loop goes on by itself;
* only an error other than the loss of the store, while connecting, makes the loop fail.
-/

namespace Converge

open Store (SubId Polled)

/-! ## 1. Stages -/

/-- How a loop ended. -/
inductive LoopEnd where
  /-- It was asked to stop. -/
  | stopped
  | failed (e : Error)
  /-- A computation left the width of the clock. -/
  | overflowed (what : TimeOverflow)
deriving DecidableEq, Repr

/-- Where a loop is. -/
inductive Stage where
  /-- Nothing was done yet. -/
  | begun
  /-- Before connecting. -/
  | outside
  | connecting (dial : Dial)
  /-- Subscription and rows are there, and next comes the full pass. -/
  | loaded (sub : SubId) (snapshot : Snapshot)
  /-- Between two events; `due` is the moment of the next unasked reading. -/
  | between (sub : SubId) (due : Option Duration)
  /-- Next comes the reading of all rows. -/
  | reading (sub : SubId) (due : Option Duration)
  /-- The rows were read anew, and next comes the full pass. -/
  | reloaded (sub : SubId) (due : Option Duration) (snapshot : Snapshot)
  /-- Next comes the wait for an event. -/
  | listening (sub : SubId) (due : Option Duration)
  /-- Waiting for an event, until a moment. -/
  | polling (sub : SubId) (due : Option Duration) (deadline : Duration)
  /-- An event is there. -/
  | received (sub : SubId) (due : Option Duration) (e : ChangeEvent)
  | ended (how : LoopEnd)
deriving DecidableEq

/-- A loop in its surroundings. -/
structure Loop (σ : Type) where
  stage : Stage
  scene : Scene σ
  /-- It was asked to stop. -/
  stopAsked : Bool
  /-- It was asked to read all rows anew. -/
  resyncAsked : Bool

/-! ## 2. The clock -/

/-- The first moment, in seconds, that a clock with a sign does not hold. -/
def clockLimit : Nat := 0x8000000000000000

/-- The moment that lies a span ahead, if the clock holds it. -/
def later? (now span : Duration) : Option Duration :=
  if (now + span).wholeSecs < clockLimit then some (now + span) else none

/-- The moment of the next unasked reading; `none` if the clock does not hold it. -/
def nextReading (settings : LoopSettings) (now : Duration) : Option (Option Duration) :=
  match settings.resyncInterval with
  | none => some none
  | some interval => (later? now interval).map some

/-! ## 3. Steps -/

namespace Loop

variable {σ : Type}

/-- A loop before its first step. -/
def start (d : Daemon σ) (s : σ) : Loop σ := ⟨.begun, .start d s, false, false⟩

def goto (l : Loop σ) (stage : Stage) (scene : Scene σ) : Loop σ := { l with stage, scene }

/-- The audit entry at the beginning. -/
def startedEntry (d : Daemon σ) : Audit.Entry :=
  ((Audit.Entry.of .systemLifecycle d.name "daemon_started").withOutcome .success).withDetails
    (Json.object [("tables", Json.texts d.tables)])

/-- The audit entry at the end. -/
def stoppedEntry (d : Daemon σ) : Audit.Entry :=
  (Audit.Entry.of .systemLifecycle d.name "daemon_stopped").withOutcome .success

/-- The audit entry of the loss of the store. -/
def lostEntry (d : Daemon σ) (e : Error) : Audit.Entry :=
  (Audit.Entry.of .errorCondition d.name "store_lost").withError e.message

/-- Stops as asked. -/
def stop (l : Loop σ) (d : Daemon σ) (sc : Scene σ) : Loop σ :=
  l.goto (.ended .stopped) ((sc.enter .shutdown).audit (stoppedEntry d))

/-- Goes back to the beginning after the loss of the store. -/
def lose (l : Loop σ) (d : Daemon σ) (feed : Feed σ) (sub : SubId) (e : Error) (sc : Scene σ) :
    Loop σ :=
  l.goto .outside ((sc.audit (lostEntry d e)).release feed sub)

/-- Between two events: stops, reads anew or listens. -/
def choose (l : Loop σ) (d : Daemon σ) (feed : Feed σ) (sub : SubId) (due : Option Duration) :
    Loop σ :=
  let sc := l.scene
  if l.stopAsked then l.stop d (sc.release feed sub)
  else
    let isDue :=
      match due with
      | some moment => decide (moment ≤ sc.now)
      | none => false
    if l.resyncAsked || isDue then
      match nextReading d.settings sc.now with
      | some due => { l with resyncAsked := false }.goto (.reading sub due) sc
      | none =>
        { l with resyncAsked := false }.goto (.ended (.overflowed .adding)) (sc.release feed sub)
    else l.goto (.listening sub due) sc

/-- What a poll yields, or the end of the wait. -/
def hear (l : Loop σ) (d : Daemon σ) (feed : Feed σ) (sub : SubId) (due : Option Duration)
    (deadline : Duration) : Option (Loop σ) :=
  match feed.poll sub l.scene.host with
  | (some .nothing, s) => some (l.goto (.between sub due) { l.scene with host := s })
  | (some (.event e), s) => some (l.goto (.received sub due e) { l.scene with host := s })
  | (some (.failed e), s) =>
    let sc := { l.scene with host := s }
    if e.isStoreUnavailable then some (l.lose d feed sub e sc)
    else some (l.goto (.between sub due) sc)
  | (none, s) =>
    if deadline ≤ l.scene.now then some (l.goto (.between sub due) { l.scene with host := s })
    else none

/-- **One step of the loop**, or nothing if it has ended or has to wait. -/
def step (d : Daemon σ) (feed : Feed σ) (l : Loop σ) : Option (Loop σ) :=
  let sc := l.scene
  match l.stage with
  | .begun => some (l.goto .outside (sc.audit (startedEntry d)))
  | .outside =>
    if l.stopAsked then some (l.stop d sc)
    else some (l.goto (.connecting (.start d.settings)) (sc.enter .loading))
  | .connecting dial =>
    match dial.step d feed l.stopAsked sc with
    | .next dial sc => some (l.goto (.connecting dial) sc)
    | .waits _ => none
    | .connected sub snapshot sc => some (l.goto (.loaded sub snapshot) sc)
    | .stopped sc => some (l.stop d sc)
    | .failed e sc => some (l.goto (.ended (.failed e)) sc)
    | .overflowed sc => some (l.goto (.ended (.overflowed .doubling)) sc)
  | .loaded sub snapshot =>
    let sc := ((sc.pass d snapshot).2).enter .steady
    match nextReading d.settings sc.now with
    | some due => some (l.goto (.between sub due) sc)
    | none => some (l.goto (.ended (.overflowed .adding)) (sc.release feed sub))
  | .between sub due => some (l.choose d feed sub due)
  | .reading sub due =>
    match sc.load feed d.tables with
    | (.ok snapshot, sc) => some (l.goto (.reloaded sub due snapshot) sc)
    | (.error e, sc) =>
      if e.isStoreUnavailable then some (l.lose d feed sub e sc)
      else some (l.goto (.listening sub due) sc)
  | .reloaded sub due snapshot => some (l.goto (.listening sub due) (sc.pass d snapshot).2)
  | .listening sub due =>
    match later? sc.now d.settings.selectTimeout with
    | some deadline => some (l.goto (.polling sub due deadline) sc)
    | none => some (l.goto (.ended (.overflowed .adding)) (sc.release feed sub))
  | .polling sub due deadline => l.hear d feed sub due deadline
  | .received sub due e => some (l.goto (.between sub due) (sc.meet d e).2)
  | .ended _ => none

/-- The moment at which a waiting loop goes on by itself. -/
def alarm? (l : Loop σ) : Option Duration :=
  match l.stage with
  | .connecting (.pausing _ moment) => some moment
  | .polling _ _ deadline => some deadline
  | _ => none

/-- The loop has ended, and how. -/
def end? (l : Loop σ) : Option LoopEnd :=
  match l.stage with
  | .ended how => some how
  | _ => none

/-! ## 4. Running -/

/-- Steps until the loop has ended or has to wait. `fuel` bounds the steps. -/
def settle (d : Daemon σ) (feed : Feed σ) : Nat → Loop σ → Loop σ
  | 0, l => l
  | fuel + 1, l =>
    match l.step d feed with
    | some l => settle d feed fuel l
    | none => l

/-- Lets time go by. -/
def moveTo (l : Loop σ) (moment : Duration) : Loop σ :=
  { l with scene := { l.scene with now := moment } }

/-- Runs until a moment, or until `enough` holds of the waiting loop. `fuel` bounds the number of
    times that the loop waits, and the steps between two waits. -/
def runUntil (d : Daemon σ) (feed : Feed σ) (enough : Loop σ → Bool) (moment : Duration) :
    Nat → Loop σ → Loop σ
  | 0, l => l.moveTo moment
  | fuel + 1, l =>
    let l := l.settle d feed (fuel + 1)
    if enough l then l
    else
      match l.alarm? with
      | some alarm =>
        if alarm ≤ moment then runUntil d feed enough moment fuel (l.moveTo alarm)
        else l.moveTo moment
      | none => l.moveTo moment

end Loop

end Converge
