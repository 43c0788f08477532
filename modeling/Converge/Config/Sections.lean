import Converge.Command
import Converge.Text.Quoted

/-!
# Settings

The settings that every daemon shares, in three sections. Each field has a default, so a section
that is left out is the default section.

* `StoreConfig`: where the configuration and status databases are;
* `LoopConfig`: the timing of the daemon's loop, in milliseconds and seconds;
* `ExecutorConfig`: how actions are run.

`CommonConfig.validate` names the first setting that is not acceptable.
-/

namespace Converge

/-! ## 1. Sections -/

/-- Where the databases are. -/
structure StoreConfig where
  host : String := "127.0.0.1"
  port : UInt16 := 6379
  /-- The number of the database that holds the configuration. -/
  configDb : UInt32 := 4
  /-- The number of the database that holds the status rows. -/
  statusDb : UInt32 := 6
deriving DecidableEq, Repr, Inhabited

/-- The timing of the daemon's loop. -/
structure LoopConfig where
  /-- The longest wait for one event. -/
  selectTimeoutMs : UInt64 := 1000
  /-- The first wait after a failed connection. -/
  backoffInitialMs : UInt64 := 500
  /-- The longest wait after a failed connection. -/
  backoffMaxMs : UInt64 := 30000
  /-- The time between two unasked full passes; zero for none. -/
  resyncIntervalSecs : UInt64 := 0
deriving DecidableEq, Repr, Inhabited

/-- How actions are run. -/
structure ExecutorConfig where
  commandTimeoutSecs : UInt64 := 60
  /-- The number of groups of rows that may run at once. -/
  maxParallel : UInt64 := 4
  /-- Words in front of every command. -/
  commandPrefix : List String := []
  systemctlPath : String := "/bin/systemctl"
  iptablesPath : String := "/sbin/iptables"
deriving DecidableEq, Repr, Inhabited

/-- The settings that every daemon shares. -/
structure CommonConfig where
  store : StoreConfig := {}
  loop : LoopConfig := {}
  executor : ExecutorConfig := {}
deriving DecidableEq, Repr, Inhabited

/-- The address of the databases. -/
def StoreConfig.url (c : StoreConfig) : String :=
  "redis://" ++ c.host ++ ":" ++ toString c.port.toNat ++ "/"

/-- The limit on the run time of one command. -/
def ExecutorConfig.commandTimeout (c : ExecutorConfig) : Duration :=
  .ofSecs c.commandTimeoutSecs.toNat

/-- The settings as messages show them. -/
def ExecutorConfig.describe (c : ExecutorConfig) : String :=
  "ExecutorConfig \x7b command_timeout_secs: " ++ toString c.commandTimeoutSecs.toNat ++
    ", max_parallel: " ++ toString c.maxParallel.toNat ++
    ", command_prefix: " ++ Text.quotedList c.commandPrefix ++
    ", systemctl_path: " ++ Text.quoted c.systemctlPath ++
    ", iptables_path: " ++ Text.quoted c.iptablesPath ++ " \x7d"

/-! ## 2. The timing as spans -/

/-- The timing of the daemon's loop. -/
structure LoopSettings where
  selectTimeout : Duration
  backoffInitial : Duration
  backoffMax : Duration
  resyncInterval : Option Duration
deriving DecidableEq, Repr

/-- The spans of a section. -/
def LoopConfig.settings (c : LoopConfig) : LoopSettings where
  selectTimeout := .ofMillis c.selectTimeoutMs.toNat
  backoffInitial := .ofMillis c.backoffInitialMs.toNat
  backoffMax := .ofMillis c.backoffMaxMs.toNat
  resyncInterval :=
    if c.resyncIntervalSecs = 0 then none else some (.ofSecs c.resyncIntervalSecs.toNat)

instance : Inhabited LoopSettings := ⟨({} : LoopConfig).settings⟩

/-! ## 3. Acceptable settings -/

/-- Settings that must hold, each with the field and the message of its breach, in the order in
    which they are checked. -/
def CommonConfig.checks (c : CommonConfig) : List (Bool × String × String) :=
  [(c.store.port != 0, "store.redis_port", "must be > 0"),
    (c.store.configDb != c.store.statusDb, "store.state_db_number",
      "must differ from config_db_number"),
    (c.loop.selectTimeoutMs != 0, "daemon.select_timeout_ms", "must be > 0"),
    (c.loop.backoffInitialMs != 0, "daemon.backoff_initial_ms", "must be > 0"),
    (decide (c.loop.backoffInitialMs ≤ c.loop.backoffMaxMs), "daemon.backoff_max_ms",
      "must be >= backoff_initial_ms"),
    (c.executor.commandTimeoutSecs != 0, "executor.command_timeout_secs", "must be > 0"),
    (c.executor.maxParallel != 0, "executor.max_parallel", "must be > 0"),
    (!c.executor.systemctlPath.isEmpty, "executor.systemctl_path", "must not be empty")]

/-- The first check that fails. -/
def firstBreach : List (Bool × String × String) → Except Error Unit
  | [] => .ok ()
  | (true, _, _) :: rest => firstBreach rest
  | (false, field, message) :: _ => .error (.config field message)

/-- Accepts the settings or names the first one that is not acceptable. -/
def CommonConfig.validate (c : CommonConfig) : Except Error Unit := firstBreach c.checks

end Converge
