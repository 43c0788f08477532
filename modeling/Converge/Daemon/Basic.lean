import Converge.Cache
import Converge.Executor.Batch

/-!
# Daemons

A daemon keeps the host in the state that the configuration asks for. What it is made of does not
change while it runs (`Daemon`); what it knows does (`Knowledge`): the rows as the store last told
them, and the rows that were last applied without a failure.

`Daemon.create` refuses a daemon that tracks no table, or a table without a policy.
-/

namespace Converge

/-! ## 1. What a daemon is made of -/

/-- Where a daemon publishes status rows. -/
structure StatusSink (σ : Type) where
  set : RowKey → Row → σ → Except Error Unit × σ
  clear : RowKey → σ → Except Error Unit × σ

/-- A daemon, on a host whose state is `σ`. -/
structure Daemon (σ : Type) where
  name : String
  /-- The tracked tables. -/
  tables : List String
  registry : Registry
  /-- Runs the actions; its audit entries carry the daemon's name. -/
  executor : Executor σ
  sink : Option (StatusSink σ)
  settings : LoopSettings

/-- The stages of a daemon's life. -/
inductive LifeState where
  | init
  /-- Connecting, or in the full pass behind it. -/
  | loading
  /-- Waiting for events. -/
  | steady
  /-- At work on one row. -/
  | reconciling (id : RowKey)
  | shutdown
deriving DecidableEq, Repr

/-- What a daemon knows. -/
structure Knowledge where
  /-- The rows as the store last told them. -/
  snapshot : Snapshot
  /-- The rows that were last applied without a failure. -/
  applied : Cache
deriving DecidableEq

namespace Daemon

variable {σ : Type}

/-- A daemon for the given tables. -/
def create (name : String) (tables : List String) (registry : Registry) (host : Host σ)
    (config : ExecutorConfig) (sink : Option (StatusSink σ)) (settings : LoopSettings) :
    Except Error (Daemon σ) :=
  if tables.isEmpty then .error (.config "tables" "no table to track")
  else
    match registry.ensureCovers tables with
    | .error e => .error e
    | .ok () => .ok ⟨name, tables, registry, ⟨host, config, name⟩, sink, settings⟩

/-- What a daemon knows at its beginning. -/
def fresh (d : Daemon σ) : Knowledge := ⟨.tracking d.tables, .empty⟩

end Daemon

/-! ## 2. Words -/

/-- The stage as messages show it. -/
def LifeState.describe : LifeState → String
  | .init => "Init"
  | .loading => "Loading"
  | .steady => "Steady"
  | .reconciling id =>
    "Reconciling \x7b table: " ++ Text.quoted id.table ++ ", key: " ++ Text.quoted id.key ++
      " \x7d"
  | .shutdown => "Shutdown"

/-- The daemon as messages show it. -/
def Daemon.describe {σ : Type} (d : Daemon σ) (life : LifeState) : String :=
  "ReconciliationDaemon \x7b name: " ++ Text.quoted d.name ++ ", tables: " ++
    Text.quotedList d.tables ++ ", state: " ++ life.describe ++ " \x7d"

end Converge
