import Converge.Executor.Chain
import Converge.Executor.Grouping
import Converge.Policy

/-!
# Batches of rows

A batch is a list of changed rows with their actions. Rows that share a resource form a group and
run one after another in the order of the list; groups are independent of each other. The reports
come back in the order of the list.

Here the groups run one after another: groups share no resource, so whatever the order, the
reports and the commands on each resource are the same.
-/

namespace Converge

/-- The reports of the actions of one row. -/
structure DeltaReport where
  id : RowKey
  reports : List ActionReport
deriving DecidableEq, Repr

namespace DeltaReport

/-- Every action succeeded; so it is if there was none. -/
def allSucceeded (r : DeltaReport) : Bool := r.reports.all fun a => a.outcome.isSuccess

/-- The actions that did not succeed. -/
def failures (r : DeltaReport) : List ActionReport :=
  r.reports.filter fun a => !a.outcome.isSuccess

end DeltaReport

namespace Executor

variable {σ : Type}

/-- Runs the chain of one row. -/
def runDelta (ex : Executor σ) (p : PlannedDelta) (s : σ) : Ran σ DeltaReport :=
  (ex.runActions (some p.delta.id.full) [] p.actions s).andThen fun reports s =>
    .idle ⟨p.delta.id, reports⟩ s

/-- Runs the chains of rows given by their places, one after another. -/
def runPlaces (ex : Executor σ) (planned : List PlannedDelta) :
    List Nat → σ → Ran σ (List (Nat × DeltaReport))
  | [], s => .idle [] s
  | i :: rest, s =>
    match planned[i]? with
    | none => ex.runPlaces planned rest s
    | some p =>
      (ex.runDelta p s).andThen fun report s =>
        (ex.runPlaces planned rest s).andThen fun later s => .idle ((i, report) :: later) s

/-- The places of the rows in the order in which they run. -/
def schedule (planned : List PlannedDelta) : List Nat :=
  (Grouping.groupByResource (planned.map fun p => p.actions.map Action.resource)).flatten

/-- **Runs a batch.** -/
def executeBatch (ex : Executor σ) (planned : List PlannedDelta) (s : σ) :
    Ran σ (List DeltaReport) :=
  (ex.runPlaces planned (schedule planned) s).andThen fun reports s =>
    .idle ((SortedMap.ofList reports).entries.map (·.2)) s

end Executor

end Converge
