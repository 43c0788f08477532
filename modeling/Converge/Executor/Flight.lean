import Converge.Executor.Batch

/-!
# Groups of a batch at the same time

`Batch` runs the groups of a batch one after another. Here they are under way together: every group
has a lane, a lane runs its chains in the order of the batch, and one step of a lane is one action
of a chain, its beginning or its end.

* `Lane.step` is the next step of a group by itself, `Flight.step i` the next step of lane `i`;
* a lane needs a permit from its first step to its last, and there are `permits` of them;
* which lane moves next is left open: `Interleaves` is all that any order of steps leads to;
* the locks of a chain (`Crew`) do not show here: lanes of one batch share no resource, so none of
  them waits for a lock of another.
-/

namespace Converge.Executor

/-! ## 1. Lanes -/

/-- A chain that has begun. -/
structure ChainRun where
  /-- The place of its row in the batch. -/
  place : Nat
  id : RowKey
  /-- The resources on which an action did not succeed. -/
  spoiled : List String
  todo : List Action
  /-- The reports of the actions so far, in order. -/
  reports : List ActionReport

/-- A group under way. -/
structure Lane where
  running : Option ChainRun
  /-- The chains after the present one, with their places. -/
  waiting : List (Nat × PlannedDelta)
  /-- The reports of the chains that came to an end, in order. -/
  finished : List (Nat × DeltaReport)

/-- The rows at some places of a batch, with their places. -/
def chainsAt (planned : List PlannedDelta) (places : List Nat) : List (Nat × PlannedDelta) :=
  places.filterMap fun i => planned[i]?.map fun p => (i, p)

namespace Lane

variable {σ : Type}

/-- A group before its first step. -/
def ofGroup (planned : List PlannedDelta) (places : List Nat) : Lane :=
  ⟨none, chainsAt planned places, []⟩

/-- No chain is left. -/
def isOver (l : Lane) : Bool := l.running.isNone && l.waiting.isEmpty

/-- No chain has begun. -/
def isFresh (l : Lane) : Bool := l.running.isNone && l.finished.isEmpty

/-- It is between its first step and its last. -/
def holdsPermit (l : Lane) : Bool := !l.isFresh && !l.isOver

/-- **The next step of a group**, or nothing if no chain is left. -/
def step (ex : Executor σ) (l : Lane) (s : σ) : Option (Ran σ Lane) :=
  match l.running with
  | some c =>
    match c.todo with
    | [] =>
      let report : DeltaReport := ⟨c.id, c.reports⟩
      some (.idle { l with running := none, finished := l.finished ++ [(c.place, report)] } s)
    | a :: rest =>
      some ((ex.act (some c.id.full) c.spoiled a s).andThen fun outcome s =>
        .idle { l with running := some { c with
          spoiled := spoil c.spoiled a outcome
          todo := rest
          reports := c.reports ++ [⟨a, outcome⟩] } } s)
  | none =>
    match l.waiting with
    | [] => none
    | (i, p) :: rest =>
      some (.idle { l with running := some ⟨i, p.delta.id, [], p.actions, []⟩, waiting := rest } s)

end Lane

/-! ## 2. All groups together -/

/-- The groups of a batch under way on one host. -/
structure Flight (σ : Type) where
  lanes : List Lane
  host : σ
  /-- What was done so far, in order. -/
  deeds : List Deed

/-- The number of groups that may be under way at once. -/
def permits {σ : Type} (ex : Executor σ) : Nat := max 1 ex.config.maxParallel.toNat

namespace Flight

variable {σ : Type}

/-- A batch before its first step. -/
def launch (planned : List PlannedDelta) (s : σ) : Flight σ :=
  ⟨(Grouping.groupByResource (planned.map fun p => p.actions.map Action.resource)).map
    (Lane.ofGroup planned), s, []⟩

/-- **The next step of a lane**, or nothing if it is over or has to wait for a permit. -/
def step (ex : Executor σ) (i : Nat) (fl : Flight σ) : Option (Flight σ) :=
  match fl.lanes[i]? with
  | none => none
  | some l =>
    if l.isFresh && decide (permits ex ≤ fl.lanes.countP Lane.holdsPermit) then none
    else (l.step ex fl.host).map fun r => ⟨fl.lanes.set i r.value, r.host, fl.deeds ++ r.deeds⟩

/-- Every group has come to its end. -/
def isOver (fl : Flight σ) : Bool := fl.lanes.all Lane.isOver

/-- The reports so far, in the order of the batch. -/
def reports (fl : Flight σ) : List DeltaReport :=
  (SortedMap.ofList (fl.lanes.flatMap Lane.finished)).entries.map (·.2)

/-- The commands so far, in order. -/
def commands (fl : Flight σ) : List CommandSpec := fl.deeds.filterMap Deed.command?

end Flight

/-- What lanes come to, in whatever order they move. -/
inductive Interleaves {σ : Type} (ex : Executor σ) (begun : Flight σ) : Flight σ → Prop where
  | start : Interleaves ex begun begun
  | step {fl fl' : Flight σ} (h : Interleaves ex begun fl) (i : Nat)
      (hs : fl.step ex i = some fl') : Interleaves ex begun fl'

end Converge.Executor
