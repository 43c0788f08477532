import Converge.Backoff
import Converge.Daemon.Scene

/-!
# Connecting

Before a daemon follows a store it opens a subscription and then loads every row, in this order:
so no change that is made during the load is missed. While the store cannot be reached the daemon
waits and tries again, longer each time; any other error ends the attempts.

`Dial` says where between two accesses the daemon is, and `Dial.step` takes it one access further,
so whoever changes the store may do so between any two steps.
-/

namespace Converge

open Store (SubId)

/-- Where a daemon is while it connects. -/
inductive Dial where
  /-- Next comes the subscription. -/
  | attempting (backoff : Backoff)
  /-- The subscription is open, and next comes the load. -/
  | subscribed (backoff : Backoff) (sub : SubId)
  /-- The attempt failed; the next one begins at a moment. -/
  | pausing (backoff : Backoff) (moment : Duration)
deriving DecidableEq, Repr

/-- What one step of connecting leads to. -/
inductive DialStep (σ : Type) where
  | next (dial : Dial) (sc : Scene σ)
  /-- There is nothing to do before a moment. -/
  | waits (moment : Duration)
  /-- Subscription and rows are there. -/
  | connected (sub : SubId) (snapshot : Snapshot) (sc : Scene σ)
  /-- It was asked to stop. -/
  | stopped (sc : Scene σ)
  | failed (e : Error) (sc : Scene σ)
  /-- The doubled wait left the width of the clock. -/
  | overflowed (sc : Scene σ)

namespace Dial

variable {σ : Type}

/-- The beginning of connecting. -/
def start (settings : LoopSettings) : Dial :=
  .attempting (.start settings.backoffInitial settings.backoffMax)

/-- An access failed. -/
def afterFailure (backoff : Backoff) (e : Error) (sc : Scene σ) : DialStep σ :=
  if e.isStoreUnavailable then
    match backoff.next? with
    | some (delay, backoff) => .next (.pausing backoff (sc.now + delay)) sc
    | none => .overflowed sc
  else .failed e sc

/-- **One step of connecting**, given whether it was asked to stop. -/
def step (d : Daemon σ) (feed : Feed σ) (stop : Bool) (dial : Dial) (sc : Scene σ) :
    DialStep σ :=
  match dial with
  | .attempting backoff =>
    if stop then .stopped sc
    else
      match sc.subscribe feed d.tables with
      | (.ok sub, sc) => .next (.subscribed backoff sub) sc
      | (.error e, sc) => afterFailure backoff e sc
  | .subscribed backoff sub =>
    match sc.load feed d.tables with
    | (.ok snapshot, sc) => .connected sub snapshot sc
    | (.error e, sc) => afterFailure backoff e (sc.release feed sub)
  | .pausing backoff moment =>
    if stop then .stopped sc
    else if moment ≤ sc.now then .next (.attempting backoff) sc
    else .waits moment

/-- Connects with nobody else at work. If a moment comes first, the answer is `next`. `fuel` bounds
    the steps. -/
def stepsUntil (d : Daemon σ) (feed : Feed σ) (stop : Bool) (limit : Duration) :
    Nat → Dial → Scene σ → DialStep σ
  | 0, dial, sc => .next dial { sc with now := limit }
  | fuel + 1, dial, sc =>
    match dial.step d feed stop sc with
    | .next dial sc => stepsUntil d feed stop limit fuel dial sc
    | .waits moment =>
      if moment ≤ limit then stepsUntil d feed stop limit fuel dial { sc with now := moment }
      else .next dial { sc with now := limit }
    | done => done

end Dial

end Converge
