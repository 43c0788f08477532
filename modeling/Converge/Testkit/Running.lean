import Converge.Daemon.Loop
import Converge.Signals
import Converge.Testkit.Script
import Converge.Text.Quoted

/-!
# A daemon in the background of a test

A test and a daemon share one thread and a clock that moves only when neither has anything to do.
The daemon goes on only while the test waits; all else that a test does takes effect at once.
-/

namespace Converge.Testkit

/-- A daemon in the background. -/
structure Running where
  loop : Loop Bench
  /-- Without it the daemon does nothing. -/
  started : Bool := false

namespace Running

/-- How often a loop may wait, and step between two waits, while the given time goes by. -/
def patience (ms : Nat) : Nat := 100000 + 8 * ms

/-- Waits, at most until `enough` holds of the waiting loop. -/
def wait (d : Daemon Bench) (enough : Loop Bench → Bool) (ms : Nat) (r : Running) : Running :=
  let moment := r.loop.scene.now + .ofMillis ms
  if r.started then { r with loop := r.loop.runUntil d Bench.feed enough moment (patience ms) }
  else { r with loop := r.loop.moveTo moment }

/-- The time within which something is expected. -/
def expectedWithin : Nat := 5000

/-- Waits until the daemon is in a stage, and says whether it came to that. -/
def waitFor (d : Daemon Bench) (life : LifeState) (r : Running) : Bool × Running :=
  if r.loop.scene.life = life then (true, r)
  else
    let r := r.wait d (fun l => decide (l.scene.life = life)) expectedWithin
    (decide (r.loop.scene.life = life), r)

/-- The number of loads so far. -/
def loads (r : Running) : Nat := r.loop.scene.host.store.loads

/-- Looks for a number of loads every ten milliseconds, so many times. -/
def lookForLoads (d : Daemon Bench) (count : Nat) : Nat → Running → Bool × Running
  | 0, r => (decide (count ≤ r.loads), r)
  | times + 1, r =>
    if count ≤ r.loads then (true, r)
    else lookForLoads d count times (r.wait d (fun _ => false) 10)

/-- Waits for a number of loads, and says whether it came to that. -/
def waitForLoads (d : Daemon Bench) (count : Nat) (r : Running) : Bool × Running :=
  lookForLoads d count (expectedWithin / 10) r

/-- Asks the daemon to stop. -/
def askStop (r : Running) : Running := { r with loop := { r.loop with stopAsked := true } }

/-- Asks the daemon to read all rows anew. -/
def askResync (r : Running) : Running := { r with loop := { r.loop with resyncAsked := true } }

/-- A signal arrives, and the test waits, in no time, until it was handled. -/
def signal (d : Daemon Bench) (onHangup : HangupAction) (s : Signal) (r : Running) : Running :=
  { r with loop := r.loop.signal onHangup s }.wait d (fun _ => false) 0

/-- Asks the daemon to stop and waits for its end. -/
def finish (d : Daemon Bench) (r : Running) : Running :=
  let r := r.askStop
  if r.loop.end?.isSome then r
  else
    match r.loop.alarm? with
    | some moment =>
      r.wait d (fun l => l.end?.isSome) ((moment.nanos - r.loop.scene.now.nanos) / 1000000 + 1)
    | none => r.wait d (fun l => l.end?.isSome) expectedWithin

/-- What a test is told at the end of a daemon that broke down. The system numbers its tasks. -/
def breakdown? (task : Nat) (r : Running) : Option String :=
  match r.loop.end? with
  | some (.overflowed what) =>
    some ("daemon task failed: task " ++ toString task ++ " panicked with message " ++
      Text.quoted what.message)
  | _ => none

end Running

end Converge.Testkit
