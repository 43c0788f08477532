import Converge.Executor.Crew

/-!
# Locks in the course of time

Visitors come at their times, lock resources, stay for a while and leave. Time moves only when no
visitor can go on. Whoever waits for a lock longest gets it first, at the very moment at which it
is given back.

`LockTimeline.notes` says who had all locks and who left, and when; at one moment those who leave
come first, and then the names decide.
-/

namespace Converge.Testkit

open Executor (Crew Caller)

/-- A visitor of the locks. -/
structure Visit where
  id : String
  /-- When the visitor comes, in milliseconds. -/
  arrival : Nat
  resources : List String
  /-- How long the visitor keeps the locks, in milliseconds. -/
  stay : Nat

/-- What happens to a visitor. -/
inductive LockEvent where
  | released
  /-- All locks are there, so many. -/
  | locked (count : Nat)
deriving DecidableEq, Repr

/-- What happened to whom, and when. -/
structure LockNote where
  moment : Nat
  event : LockEvent
  id : String
deriving DecidableEq, Repr

/-- The order in which notes are shown. -/
def LockNote.before (a b : LockNote) : Bool :=
  let rank (n : LockNote) : Nat := match n.event with
    | .released => 0
    | .locked _ => 1
  if a.moment ≠ b.moment then decide (a.moment < b.moment)
  else if rank a ≠ rank b then decide (rank a < rank b)
  else decide (a.id ≤ b.id)

/-- The visitors at a moment. Visitors are known by their places in the list. -/
structure LockTimeline where
  visits : List Visit
  crew : Crew
  now : Nat := 0
  /-- Those who can go on, in order. -/
  ready : List Nat := []
  /-- Those who wait for a lock, the longest first. -/
  waiting : List Nat := []
  /-- When those who wait for a time go on, in the order in which they began to wait. -/
  alarms : List (Nat × Nat) := []
  notes : List LockNote := []

namespace LockTimeline

/-- The place of a caller. -/
def stand? (l : LockTimeline) (i : Nat) : Option Executor.Stand :=
  l.crew.callers[i]?.map (·.stand)

/-- Gives a lock to the visitor who waits for it longest. -/
def handOver (l : LockTimeline) (resource : String) : LockTimeline :=
  let waits (i : Nat) : Bool := (l.stand? i).bind (·.wanted?) = some resource
  match l.waiting.find? waits with
  | none => l
  | some i =>
    match l.crew.next i with
    | none => l
    | some crew =>
      { l with crew, waiting := l.waiting.filter (· != i), ready := l.ready ++ [i] }

def note (l : LockTimeline) (i : Nat) (event : LockEvent) : LockTimeline :=
  match l.visits[i]? with
  | some v => { l with notes := l.notes ++ [⟨l.now, event, v.id⟩] }
  | none => l

/-- Lets a visitor wait for a time; without a time to wait there is nothing to wait for. -/
def pause (l : LockTimeline) (i ms : Nat) : LockTimeline :=
  if ms = 0 then l else { l with alarms := l.alarms ++ [(l.now + ms, i)] }

/-- Lets a visitor go on until it has to wait or has left. `fuel` bounds the steps. -/
def act (i : Nat) : Nat → LockTimeline → LockTimeline
  | 0, l => l
  | fuel + 1, l =>
    match l.visits[i]?, l.stand? i, l.crew.next i with
    | some v, some (.locking held []), some crew =>
      let l := { l with crew }.note i (.locked held.length)
      if v.stay = 0 then act i fuel l else l.pause i v.stay
    | some _, some (.locking _ (_ :: _)), some crew => act i fuel { l with crew }
    | some _, some (.locking _ (_ :: _)), none => { l with waiting := l.waiting ++ [i] }
    | some _, some (.running held), some crew =>
      held.foldl handOver ({ l with crew }.note i .released)
    | _, _, _ => l

/-- A visitor comes at the beginning, or waits for its time. -/
def arrive (l : LockTimeline) (i : Nat) (v : Visit) : LockTimeline :=
  if v.arrival = 0 then l.act i (v.resources.length + 3) else l.pause i v.arrival

def start (visits : List Visit) : LockTimeline :=
  let empty : LockTimeline :=
    { visits, crew := ⟨0, visits.map fun v => .ofChain v.resources⟩ }
  visits.zipIdx.foldl (fun l (v, i) => l.arrive i v) empty

/-- Moves to the next moment at which somebody goes on. -/
def advance (l : LockTimeline) : Option LockTimeline :=
  match (l.alarms.map (·.1)).min? with
  | none => none
  | some moment =>
    some { l with
      now := moment
      ready := (l.alarms.filter (·.1 == moment)).map (·.2)
      alarms := l.alarms.filter (·.1 != moment) }

/-- Runs until everybody has left. `fuel` bounds the turns of visitors and of the clock. -/
def finish : Nat → LockTimeline → LockTimeline
  | 0, l => l
  | fuel + 1, l =>
    match l.ready with
    | i :: ready =>
      let steps := (l.visits[i]?.map (·.resources.length)).getD 0 + 3
      finish fuel ({ l with ready }.act i steps)
    | [] =>
      match l.advance with
      | some l => finish fuel l
      | none => l

/-- More turns than there can be: each visitor has one on arrival, one for every lock and one to
    leave, and the clock no more than that. -/
def turns (visits : List Visit) : Nat :=
  visits.foldl (fun n v => n + 2 * (v.resources.length + 3)) 1

/-- **What happens when visitors come to free locks.** -/
def notesOf (visits : List Visit) : List LockNote :=
  (finish (turns visits) (start visits)).notes.mergeSort LockNote.before

end LockTimeline

end Converge.Testkit
