import Converge.Error
import Converge.HostService.Pool
import Converge.Text.Quoted

/-!
# A pool in the course of time

Tasks that run for a while are given to a pool. Time moves only when nothing can go on, so between
two steps of a test everything that can happen at that moment has happened.

`PoolTimeline.notes` says which tasks started and ended and how their submissions came out, and
when; at one moment what ends comes first and what starts comes last, and then the names decide.
-/

namespace Converge.Testkit

open HostService (Pool)

/-- A task. -/
structure PoolTask where
  id : String
  /-- How long it runs, in milliseconds. -/
  span : Nat
  /-- It breaks down in the end, with this message. -/
  breakdown : Option String

/-- What happens to a task. -/
inductive PoolEvent where
  | ended
  /-- The submission came out: with the name of its task, or with an error. -/
  | settled (result : Except Error String)
  | started

/-- What happened to which task, and when. -/
structure PoolNote where
  moment : Nat
  event : PoolEvent
  id : String

def PoolEvent.rank : PoolEvent → Nat
  | .ended => 0
  | .settled _ => 1
  | .started => 2

/-- The order in which notes are shown. -/
def PoolNote.before (a b : PoolNote) : Bool :=
  if a.moment ≠ b.moment then decide (a.moment < b.moment)
  else if a.event.rank ≠ b.event.rank then decide (a.event.rank < b.event.rank)
  else decide (a.id ≤ b.id)

/-- The error of a submission to a pool that was shut down. -/
def shuttingDown : Error := .internal "worker pool shutting down"

/-- The error of a task that broke down. Which number the task had is left open. -/
def brokenDown (message : String) : Error :=
  .internal ("worker task failed: task <id> panicked with message " ++ Text.quoted message)

/-- A pool with its tasks at a moment. Tasks are known by their places in the list. -/
structure PoolTimeline where
  pool : Pool
  tasks : List PoolTask := []
  now : Nat := 0
  /-- When the tasks that run come to their ends, in the order in which they started. -/
  ends : List (Nat × Nat) := []
  notes : List PoolNote := []

namespace PoolTimeline

def create (maxWorkers : Nat) : PoolTimeline := { pool := .create maxWorkers }

/-- Takes note of what happens to a task. -/
def note (l : PoolTimeline) (k : Nat) (event : PoolTask → PoolEvent) : PoolTimeline :=
  match l.tasks[k]? with
  | some task => { l with notes := l.notes ++ [⟨l.now, event task, task.id⟩] }
  | none => l

/-- A submission with a slot starts its task, or is turned away. -/
def start (l : PoolTimeline) (k : Nat) : PoolTimeline :=
  let l := { l with pool := l.pool.start k }
  if l.pool.closed then l.note k fun _ => .settled (.error shuttingDown)
  else
    let span := (l.tasks[k]?.map (·.span)).getD 0
    { l with ends := l.ends ++ [(l.now + span, k)] }.note k fun _ => .started

/-- A submission that waits is turned away. -/
def turnAway (l : PoolTimeline) (k : Nat) : PoolTimeline :=
  { l with pool := l.pool.turnAway k }.note k fun _ => .settled (.error shuttingDown)

/-- A task comes to its end. -/
def finish (l : PoolTimeline) (k : Nat) : PoolTimeline :=
  let l := { l with pool := l.pool.finish k, ends := l.ends.filter (·.2 != k) }
  match l.tasks[k]?.bind (·.breakdown) with
  | some message => l.note k fun _ => .settled (.error (brokenDown message))
  | none => (l.note k fun _ => .ended).note k fun task => .settled (.ok task.id)

/-- What can happen at this moment: a submission with a slot goes on, one that waits is turned
    away, or a task comes to its end. -/
def next? (l : PoolTimeline) : Option PoolTimeline :=
  match l.pool.granted with
  | k :: _ => some (l.start k)
  | [] =>
    match (if l.pool.closed then l.pool.waiting else []) with
    | k :: _ => some (l.turnAway k)
    | [] => (l.ends.find? fun e => decide (e.1 ≤ l.now)).map fun e => l.finish e.2

/-- Lets everything happen that can happen at this moment. `fuel` bounds what happens. -/
def settleWithin : Nat → PoolTimeline → PoolTimeline
  | 0, l => l
  | fuel + 1, l =>
    match l.next? with
    | some l => settleWithin fuel l
    | none => l

/-- Lets everything happen that can happen at this moment: a task starts and ends at most. -/
def settle (l : PoolTimeline) : PoolTimeline := l.settleWithin (2 * l.tasks.length + 1)

/-- Gives a task to the pool. -/
def submit (l : PoolTimeline) (task : PoolTask) : PoolTimeline :=
  { l with pool := l.pool.arrive l.tasks.length, tasks := l.tasks ++ [task] }.settle

def shutDown (l : PoolTimeline) : PoolTimeline := { l with pool := l.pool.shutDown }.settle

/-- Lets time go by until a moment, or until `enough` holds. `fuel` bounds how often the clock
    moves. -/
def runUntil (enough : Pool → Bool) (moment : Nat) : Nat → PoolTimeline → PoolTimeline
  | 0, l => l
  | fuel + 1, l =>
    if enough l.pool then l
    else
      match (l.ends.map (·.1)).min? with
      | some due =>
        if due ≤ moment then runUntil enough moment fuel { l with now := due }.settle
        else { l with now := moment }
      | none => { l with now := moment }

/-- Lets time go by. -/
def wait (l : PoolTimeline) (ms : Nat) : PoolTimeline :=
  l.runUntil (fun _ => false) (l.now + ms) (l.tasks.length + 1)

/-- How long a test waits for a pool to drain, in milliseconds. -/
def patience : Nat := 60000

/-- Waits until the pool is drained, and says whether it came to that in time. -/
def drain (l : PoolTimeline) : Bool × PoolTimeline :=
  let limit := l.now + patience
  let l := l.runUntil Pool.isDrained (limit - 1) (l.tasks.length + 1)
  if l.pool.isDrained then (true, l) else (false, l.wait (limit - l.now))

/-- The notes in the order in which they are shown. -/
def shown (l : PoolTimeline) : List PoolNote := l.notes.mergeSort PoolNote.before

end PoolTimeline

end Converge.Testkit
