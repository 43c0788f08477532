import Converge.Daemon.Basic

/-!
# Working on rows

The two ways in which a daemon works on rows, and what both have in common.

* `commit` ends the work on a row: **only if every action succeeded is the row noted as applied**;
  either way one audit entry is made and the status row is published.
* `fullPass` plans every row of a snapshot, changed or not, and a removal for every applied row
  that the snapshot does not have. Rows that their policy refuses are ended at once; the others
  run as one batch and are ended in order after it.
* `reconcile` works on the row of one event, unless it equals the applied row.
-/

namespace Converge

/-! ## 1. The end of the work on a row -/

namespace Daemon

variable {σ : Type}

/-- The audit entry at the end of the work on a row. -/
def commitEntry (d : Daemon σ) (delta : RowDelta) (applied : Bool) : Audit.Entry :=
  let entry := (Audit.Entry.of .configurationChange d.name
    (if delta.isRemoval then "remove_row" else "apply_row")).withResource delta.id.full
  if applied then entry.withOutcome .success else entry.withError "row not fully applied"

/-- Publishes what there is to publish about a row. That the sink cannot be reached is no reason to
    stop. -/
def publish (d : Daemon σ) (delta : RowDelta) (applied : Bool) (s : σ) : σ :=
  match d.sink with
  | none => s
  | some sink =>
    match delta.new with
    | none => if applied then (sink.clear delta.id s).2 else s
    | some new =>
      match d.registry.status delta.id new applied with
      | some status => (sink.set delta.id status s).2
      | none => s

/-- The applied rows after the work on a row. -/
def note (cache : Cache) (delta : RowDelta) (applied : Bool) : Cache :=
  if applied then cache.record delta.id delta.new else cache

/-- Ends the work on a row. -/
def commit (d : Daemon σ) (delta : RowDelta) (applied : Bool) (cache : Cache) (s : σ) :
    Ran σ Cache :=
  ⟨note cache delta applied, d.publish delta applied s, [.audit (d.commitEntry delta applied)]⟩

/-! ## 2. The full pass -/

end Daemon

/-- The counts of a full pass. -/
structure PassSummary where
  deltas : Nat
  applied : Nat
  failed : Nat
deriving DecidableEq, Repr

/-- The rows of a full pass: every row of the snapshot against the applied one, in order, then the
    applied rows that the snapshot does not have. -/
def passDeltas (cache : Cache) (snapshot : Snapshot) : List RowDelta :=
  snapshot.rows.map (fun (id, row) => ⟨id, cache.get? id, some row⟩) ++
    (cache.entries.filter fun (id, _) => (snapshot.row? id).isNone).map fun (id, row) =>
      ⟨id, some row, none⟩

/-- The rows of a pass that have a plan, and the number of rows that were refused. -/
structure Sorted where
  planned : List PlannedDelta
  refused : Nat

namespace Daemon

variable {σ : Type}

/-- Plans rows in order and ends the work on those that are refused. -/
def sortOut (d : Daemon σ) (cache : Cache) : List RowDelta → σ → Ran σ Sorted
  | [], s => .idle ⟨[], 0⟩ s
  | delta :: rest, s =>
    match d.registry.plan delta with
    | .ok actions =>
      (d.sortOut cache rest s).andThen fun later s =>
        .idle { later with planned := ⟨delta, actions⟩ :: later.planned } s
    | .error _ =>
      (d.commit delta false cache s).andThen fun _ s =>
        (d.sortOut cache rest s).andThen fun later s =>
          .idle { later with refused := later.refused + 1 } s

/-- The applied rows after a batch, with the number of rows that were applied and that were not. -/
structure Settled where
  cache : Cache
  applied : Nat
  failed : Nat

/-- Ends the work on the rows of a batch in order. -/
def settle (d : Daemon σ) : List (RowDelta × DeltaReport) → Cache → σ → Ran σ Settled
  | [], cache, s => .idle ⟨cache, 0, 0⟩ s
  | (delta, report) :: rest, cache, s =>
    let ok := report.allSucceeded
    (d.commit delta ok cache s).andThen fun cache s =>
      (d.settle rest cache s).andThen fun later s =>
        .idle (if ok then { later with applied := later.applied + 1 }
          else { later with failed := later.failed + 1 }) s

/-- **A full pass over a snapshot.** -/
def fullPass (d : Daemon σ) (snapshot : Snapshot) (k : Knowledge) (s : σ) :
    Ran σ (Knowledge × PassSummary) :=
  let deltas := passDeltas k.applied snapshot
  (d.sortOut k.applied deltas s).andThen fun sorted s =>
    (d.executor.executeBatch sorted.planned s).andThen fun reports s =>
      (d.settle ((sorted.planned.map (·.delta)).zip reports) k.applied s).andThen
        fun settled s =>
          .idle (⟨snapshot, settled.cache⟩,
            ⟨deltas.length, settled.applied, sorted.refused + settled.failed⟩) s

end Daemon

/-! ## 3. One event -/

/-- What became of an event. -/
inductive EventOutcome where
  /-- Its table is not tracked. -/
  | dropped
  /-- The row equals the applied one. -/
  | unchanged
  /-- Actions were run. -/
  | applied (report : DeltaReport)
  /-- The policy refused the row. -/
  | refused (message : String)
deriving DecidableEq, Repr

namespace Daemon

variable {σ : Type}

/-- The work on one changed row. -/
def work (d : Daemon σ) (delta : RowDelta) (cache : Cache) (s : σ) :
    Ran σ (Cache × EventOutcome) :=
  match d.registry.plan delta with
  | .error e =>
    (d.commit delta false cache s).andThen fun cache s => .idle (cache, .refused e.message) s
  | .ok actions =>
    (d.executor.executeBatch [⟨delta, actions⟩] s).andThen fun reports s =>
      match reports.getLast? with
      | none => .idle (cache, .unchanged) s
      | some report =>
        (d.commit delta report.allSucceeded cache s).andThen fun cache s =>
          .idle (cache, .applied report) s

/-- The change that an event means for a daemon, if there is one: the new snapshot, and the row if
    it differs from the applied one. -/
def changeOf (k : Knowledge) (e : ChangeEvent) : Except Error (Snapshot × Option RowDelta) :=
  match k.snapshot.apply e with
  | .error err => .error err
  | .ok snapshot =>
    let new := snapshot.row? e.id
    let old := k.applied.get? e.id
    .ok (snapshot, if old = new then none else some ⟨e.id, old, new⟩)

/-- **The work on one event.** -/
def reconcile (d : Daemon σ) (e : ChangeEvent) (k : Knowledge) (s : σ) :
    Ran σ (Knowledge × EventOutcome) :=
  match changeOf k e with
  | .error _ => .idle (k, .dropped) s
  | .ok (snapshot, none) => .idle (⟨snapshot, k.applied⟩, .unchanged) s
  | .ok (snapshot, some delta) =>
    (d.work delta k.applied s).andThen fun (cache, outcome) s =>
      .idle (⟨snapshot, cache⟩, outcome) s

/-- The row that a daemon says it is at work on during an event. -/
def busyWith? (k : Knowledge) (e : ChangeEvent) : Option RowKey :=
  match changeOf k e with
  | .ok (_, some delta) => some delta.id
  | _ => none

end Daemon

end Converge
