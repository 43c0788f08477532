/-!
# A pool of workers

A pool runs tasks in a bounded number of slots. A submission gets a slot at once if one is free, or
else in the order of arrival; with its slot it starts its task, and the end of the task, good or
bad, gives the slot back. A pool that was shut down starts nothing more; what runs may end.

* `Pool.limit` is the number of slots, never zero;
* a slot is free, or belongs to a submission about to start, or to a task that runs;
* each operation is a step of one submission or of the owner of the pool, and steps may follow each
  other in any order: `Step` lists them, and `Pool.step` answers with nothing where a step is not
  possible.
-/

namespace Converge.HostService

/-- Where all submissions are. Submissions are known by numbers. -/
structure Pool where
  /-- The number of slots. -/
  limit : Nat
  /-- Free slots. -/
  available : Nat
  /-- Submissions without a slot, the first to come first. -/
  waiting : List Nat := []
  /-- Submissions that have a slot and are about to start. -/
  granted : List Nat := []
  /-- Tasks that run. -/
  running : List Nat := []
  /-- The pool was shut down. -/
  closed : Bool := false
deriving DecidableEq, Repr

namespace Pool

/-- A pool for so many tasks at a time, and for one if the number is zero. -/
def create (maxWorkers : Nat) : Pool := ⟨max 1 maxWorkers, max 1 maxWorkers, [], [], [], false⟩

/-- A slot comes back: it goes to the first submission that waits. -/
def giveBack (p : Pool) : Pool :=
  match p.waiting with
  | [] => { p with available := p.available + 1 }
  | k :: waiting => { p with waiting, granted := p.granted ++ [k] }

/-- A submission comes in. -/
def arrive (p : Pool) (k : Nat) : Pool :=
  if p.available = 0 then { p with waiting := p.waiting ++ [k] }
  else { p with available := p.available - 1, granted := p.granted ++ [k] }

/-- A submission with a slot starts its task, or gives the slot back if the pool was shut down. -/
def start (p : Pool) (k : Nat) : Pool :=
  let p := { p with granted := p.granted.erase k }
  if p.closed then p.giveBack else { p with running := p.running ++ [k] }

/-- A submission that waits is turned away. -/
def turnAway (p : Pool) (k : Nat) : Pool := { p with waiting := p.waiting.erase k }

/-- A task comes to its end, good or bad. -/
def finish (p : Pool) (k : Nat) : Pool := { p with running := p.running.erase k }.giveBack

def shutDown (p : Pool) : Pool := { p with closed := true }

/-- There is nothing left to wait for. -/
def isDrained (p : Pool) : Bool := p.closed && p.running.isEmpty

/-- What can happen to a pool. -/
inductive Step where
  | arrive (k : Nat)
  | start (k : Nat)
  | turnAway (k : Nat)
  | finish (k : Nat)
  | shutDown
deriving DecidableEq, Repr

/-- **One step of a pool**, or nothing if the step is not possible. -/
def step (p : Pool) : Step → Option Pool
  | .arrive k => some (p.arrive k)
  | .start k => if k ∈ p.granted then some (p.start k) else none
  | .turnAway k => if p.closed ∧ k ∈ p.waiting then some (p.turnAway k) else none
  | .finish k => if k ∈ p.running then some (p.finish k) else none
  | .shutDown => some p.shutDown

end Pool

end Converge.HostService
