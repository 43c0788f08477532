import Converge.Config.Daemons
import Converge.Daemon.Scene
import Converge.Files.Tree
import Converge.HostService.Reply
import Converge.Testkit.LockTimeline
import Converge.Testkit.PoolTimeline
import Converge.Testkit.ScriptedPolicy

/-!
# Writing transcripts

A transcript tells as a JSON value what happened in a test. The functions here write its parts.

A trace is the list of what could be seen, in order. Groups of rows that share nothing may run at
the same time, so where that is allowed their entries are put into an order of their own: in every
stretch of audit entries that belong to rows, each together with the calls right before it, the
entries are sorted by row (`Trace.inOrder`).
-/

namespace Converge.Testkit.Transcript

/-! ## 1. Values -/

def object (ms : List (String × Json)) : Json := Json.object ms

def number (n : Nat) : Json := .int n

def optional {α : Type} (write : α → Json) : Option α → Json
  | some a => write a
  | none => .null

/-- The name of the cause of an error. -/
def errorKind : Error → String
  | .storeUnavailable .. => "StoreUnavailable"
  | .unknownTable .. => "UnknownTable"
  | .policy .. => "Policy"
  | .malformedEvent .. => "MalformedEvent"
  | .commandSpawn .. => "CommandSpawn"
  | .commandTimeout .. => "CommandTimeout"
  | .commandFailed .. => "CommandFailed"
  | .io .. => "Io"
  | .config .. => "Config"
  | .internal .. => "Internal"

def duration (d : Duration) : Json :=
  object [("secs", number d.wholeSecs), ("nanos", number d.subsecNanos)]

/-! ## 2. Rows -/

def event (e : ChangeEvent) : Json :=
  object [("table", .str e.id.table), ("key", .str e.id.key), ("op", .str e.op.name),
    ("row", rowJson e.row)]

def delta (d : RowDelta) : Json :=
  object [("table", .str d.id.table), ("key", .str d.id.key), ("old", optional rowJson d.old),
    ("new", optional rowJson d.new), ("is_delete", .bool d.isRemoval),
    ("full_key", .str d.id.full)]

def rowKey (k : RowKey) : Json := .arr [.str k.table, .str k.key]

def rows (l : List (RowKey × Row)) : Json :=
  .arr (l.map fun (k, r) => .arr [.str k.table, .str k.key, rowJson r])

/-! ## 3. Actions -/

def action : Action → Json
  | .service unit verb =>
    object [("kind", .str "service"), ("unit", .str unit), ("verb", .str verb.word)]
  | .writeFile path content =>
    object [("kind", .str "file"), ("path", .str path), ("content", .str content)]
  | .removeFile path => object [("kind", .str "remove_file"), ("path", .str path)]
  | .rule change spec =>
    object [("kind", .str "rule"), ("rule_op", .str change.word), ("spec", Json.texts spec)]
  | .managerReload => object [("kind", .str "daemon_reload")]

def actions (l : List Action) : Json := .arr (l.map action)

def failure (f : ActionFailure) : Json :=
  let members : List (String × Json) :=
    match f with
    | .exit code message =>
      [("kind", .str "exit"), ("code", .int code), ("message", .str message)]
    | .timeout after => [("kind", .str "timeout"), ("after", duration after)]
    | .spawn message => [("kind", .str "spawn"), ("message", .str message)]
    | .io message => [("kind", .str "io"), ("message", .str message)]
  object (members ++ [("text", .str f.text)])

def outcome : ActionOutcome → Json
  | .success => .str "success"
  | .skipped reason => object [("skipped", .str reason)]
  | .failed f => object [("failed", failure f)]

def reports (l : List ActionReport) : Json :=
  .arr (l.map fun r => object [("action", action r.action), ("outcome", outcome r.outcome)])

def deltaReport (r : DeltaReport) : Json :=
  object [("table", .str r.id.table), ("key", .str r.id.key), ("reports", reports r.reports),
    ("all_succeeded", .bool r.allSucceeded), ("failures", number r.failures.length)]

def exec (r : ExecResult) : Json :=
  object [("exit", .int r.exitCode), ("stdout", .str r.stdout), ("stderr", .str r.stderr)]

def reply (r : HostService.Reply) : Json :=
  object [("status", .int r.status), ("message", .str r.message), ("is_ok", .bool r.isOk)]

/-! ## 4. Daemons and files -/

def summary (s : PassSummary) : Json :=
  object [("deltas", number s.deltas), ("applied", number s.applied), ("failed", number s.failed)]

def eventOutcome : EventOutcome → Json
  | .dropped => .str "dropped"
  | .unchanged => .str "unchanged"
  | .applied r => object [("applied", deltaReport r)]
  | .refused m => object [("policy_failed", .str m)]

def life : LifeState → Json
  | .init => .str "init"
  | .loading => .str "loading"
  | .steady => .str "steady"
  | .reconciling k => object [("reconciling", rowKey k)]
  | .shutdown => .str "shutdown"

def tree (t : Files.Tree) (root : String) : Json :=
  object ((t.below root).map fun (rest, n) =>
    (root ++ rest,
      match n with
      | .dir => .null
      | .file content => .str (Text.decode content)))

/-! ## 5. Settings -/

def storeConfig (c : StoreConfig) : Json :=
  object [("redis_host", .str c.host), ("redis_port", number c.port.toNat),
    ("config_db_number", number c.configDb.toNat), ("state_db_number", number c.statusDb.toNat)]

def loopConfig (c : LoopConfig) : Json :=
  object [("select_timeout_ms", number c.selectTimeoutMs.toNat),
    ("backoff_initial_ms", number c.backoffInitialMs.toNat),
    ("backoff_max_ms", number c.backoffMaxMs.toNat),
    ("resync_interval_secs", number c.resyncIntervalSecs.toNat)]

def executorConfig (c : ExecutorConfig) : Json :=
  object [("command_timeout_secs", number c.commandTimeoutSecs.toNat),
    ("max_parallel", number c.maxParallel.toNat), ("command_prefix", Json.texts c.commandPrefix),
    ("systemctl_path", .str c.systemctlPath), ("iptables_path", .str c.iptablesPath)]

def commonConfig (c : CommonConfig) : List (String × Json) :=
  [("store", storeConfig c.store), ("daemon", loopConfig c.loop),
    ("executor", executorConfig c.executor)]

def featureConfig (c : FeatureConfig) : List (String × Json) :=
  commonConfig c.common ++
    [("featured", object [("systemd_dir", .str c.own.unitDir),
      ("num_asics", number c.own.chips.toNat)])]

def bmpConfig (c : BmpConfig) : List (String × Json) :=
  commonConfig c.common ++ [("bmpcfgd", object [("bmp_unit", .str c.own.unit)])]

/-! ## 6. Traces -/

/-- An entry of a trace: a call, an audit entry with the row that it belongs to, or another. -/
inductive Mark where
  | call (j : Json)
  | audit (j : Json) (correlation : Option String)
  | other (j : Json)

/-- Entries that stay together: the calls right before an audit entry, and the entry. -/
structure Piece where
  correlation : Option String
  entries : List Json

namespace Trace

/-- The pieces of a trace; `calls` are the calls before, newest first. -/
def pieces (calls : List Json) : List Mark → List Piece
  | [] => [⟨none, calls.reverse⟩]
  | .call j :: rest => pieces (j :: calls) rest
  | .audit j c :: rest => ⟨c, (j :: calls).reverse⟩ :: pieces [] rest
  | .other j :: rest => ⟨none, (j :: calls).reverse⟩ :: pieces [] rest

/-- Sorts a stretch, given newest first, by row. -/
def sortStretch (stretch : List Piece) : List Piece :=
  stretch.reverse.mergeSort fun a b => !decide (b.correlation.getD "" < a.correlation.getD "")

/-- Sorts every stretch of pieces that belong to rows; `stretch` is the one before, newest
    first. -/
def sortStretches (stretch : List Piece) : List Piece → List Piece
  | [] => sortStretch stretch
  | p :: rest =>
    if p.correlation.isSome then sortStretches (p :: stretch) rest
    else sortStretch stretch ++ p :: sortStretches [] rest

/-- The entries of a trace, sorted where groups may run at the same time. -/
def inOrder (c : ExecutorConfig) (marks : List Mark) : Json :=
  let ps := pieces [] marks
  let ps := if 1 < c.maxParallel.toNat then sortStretches [] ps else ps
  .arr (ps.flatMap Piece.entries)

end Trace

/-- A call, with more members. -/
def call (c : CommandSpec) (more : List (String × Json)) : Json :=
  object ([("call", Json.texts c.argv), ("timeout_ms", number c.timeout.wholeMillis)] ++
    (c.stdin.map fun s => ("stdin", Json.str s)).toList ++ more)

/-- The mark of a deed; a call has more members. -/
def deed (more : List (String × Json)) : Deed → Mark
  | .call c => .call (call c more)
  | .audit e =>
    .audit (object [("audit", object e.members), ("level", .str e.outcome.level.name)])
      e.correlationId

/-- The trace of deeds. -/
def deeds (c : ExecutorConfig) (l : List Deed) : Json := Trace.inOrder c (l.map (deed []))

def accessName : StoreAccess → String
  | .subscribe => "subscribe"
  | .load => "load_all"

/-- The mark of what could be seen of a daemon; `timed` adds the moment to calls. -/
def sight? (timed : Bool) : Sight → Option Mark
  | .stage _ => none
  | .deed d stage moment =>
    some (deed ([("state", life stage)] ++
      (if timed then [("t", number moment.wholeMillis)] else [])) d)
  | .access a e moment =>
    some (.other (object [("store", .str (accessName a)),
      ("result", .str ((e.map errorKind).getD "ok")), ("t", number moment.wholeMillis)]))

/-- The trace of what could be seen of a daemon. -/
def sights (c : ExecutorConfig) (timed : Bool) (l : List Sight) : Json :=
  Trace.inOrder c (l.filterMap (sight? timed))

/-! ## 7. Timelines -/

def lockNote (n : LockNote) : Json :=
  object (("t", number n.moment) ::
    match n.event with
    | .released => [("released", .str n.id)]
    | .locked count => [("locked", .str n.id), ("guards", number count)])

def poolNote (n : PoolNote) : Json :=
  object (("t", number n.moment) ::
    match n.event with
    | .started => [("start", .str n.id)]
    | .ended => [("end", .str n.id)]
    | .settled (.ok id) => [("done", .str n.id), ("ok", .str id)]
    | .settled (.error e) =>
      [("done", .str n.id), ("error", .str (errorKind e)), ("message", .str e.message)])

end Converge.Testkit.Transcript
