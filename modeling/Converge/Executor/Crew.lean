import Converge.SortedMap

/-!
# Callers of one executor at the same time

Any number of callers use one executor. A caller runs its chains one after another; before a chain
it locks the resources of the chain one by one, and after the chain it gives all of them back. The
groups of a batch are callers that hold a permit all the while; a caller with a single chain needs
none.

* `lockOrder` is the order in which a chain takes its locks: sorted, each resource once;
* a lock is free if no caller holds it (`Crew.isFree`), so there is nothing to keep beside the
  callers and the number of free permits;
* `Crew.next i` takes caller `i` one step further. It answers with nothing if the caller is done
  or has to wait. Which caller moves next is left open, so whatever holds after any list of
  callers (`Crew.run`) holds for every order of their steps.
-/

namespace Converge.Executor

/-! ## 1. Callers -/

/-- The resources of a chain in the order in which they are locked. -/
def lockOrder (resources : List String) : List String :=
  (SortedMap.ofList (resources.map fun r => (r, ()))).keys

/-- Where a caller is. -/
inductive Stand where
  /-- It waits for a permit. -/
  | queueing
  /-- It takes locks: those it has, and those it still needs. -/
  | locking (held needed : List String)
  /-- Its chain runs. -/
  | running (held : List String)
  | done
deriving DecidableEq, Repr

/-- The locks that a caller has. -/
def Stand.held : Stand → List String
  | .locking held _ => held
  | .running held => held
  | _ => []

/-- The lock that a caller takes next. -/
def Stand.wanted? : Stand → Option String
  | .locking _ (r :: _) => some r
  | _ => none

/-- A caller of an executor. -/
structure Caller where
  /-- It works under a permit. -/
  permitted : Bool
  stand : Stand
  /-- The resources of the chains after the present one. -/
  later : List (List String)
deriving DecidableEq, Repr

namespace Caller

/-- A caller between two chains begins with the next one. -/
def begin (c : Caller) : Caller :=
  match c.later with
  | [] => { c with stand := .done }
  | resources :: later => { c with stand := .locking [] (lockOrder resources), later }

/-- A caller with one chain. -/
def ofChain (resources : List String) : Caller := begin ⟨false, .done, [resources]⟩

/-- A group of a batch. -/
def ofGroup (chains : List (List String)) : Caller := ⟨true, .queueing, chains⟩

end Caller

/-! ## 2. Steps -/

/-- All callers of an executor, and its free permits. -/
structure Crew where
  permits : Nat
  callers : List Caller
deriving DecidableEq, Repr

namespace Crew

/-- No caller has the lock. -/
def isFree (crew : Crew) (r : String) : Bool := crew.callers.all fun c => !c.stand.held.contains r

/-- Puts a caller in place of what it was. -/
def update (crew : Crew) (i : Nat) (c : Caller) : Crew :=
  { crew with callers := crew.callers.set i c }

/-- A caller without locks goes on to its next chain. If there is none, its permit is free again. -/
def moveOn (crew : Crew) (i : Nat) (c : Caller) : Crew :=
  let c' := c.begin
  let crew := crew.update i c'
  if c.permitted && c'.stand = .done then { crew with permits := crew.permits + 1 } else crew

/-- **The next step of a caller**, or nothing if it is done or has to wait. -/
def next (i : Nat) (crew : Crew) : Option Crew :=
  match crew.callers[i]? with
  | none => none
  | some c =>
    match c.stand with
    | .queueing =>
      if crew.permits = 0 then none
      else some ({ crew with permits := crew.permits - 1 }.moveOn i c)
    | .locking held [] => some (crew.update i { c with stand := .running held })
    | .locking held (r :: needed) =>
      if crew.isFree r then some (crew.update i { c with stand := .locking (held ++ [r]) needed })
      else none
    | .running _ => some (crew.moveOn i c)
    | .done => none

/-- Steps of callers in a given order; a caller that cannot move stays where it is. -/
def run (crew : Crew) (order : List Nat) : Crew :=
  order.foldl (fun crew i => (crew.next i).getD crew) crew

end Crew

end Converge.Executor
