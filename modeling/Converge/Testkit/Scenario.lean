import Converge.Config.Daemons
import Converge.Json.Reader
import Converge.Testkit.Script

/-!
# Reading scenarios

A scenario describes, as a JSON value, what a test begins with and what it does. The functions here
read its parts. A member that is missing reads as the empty text, zero, the empty list or the
default of its setting, so reading never fails.
-/

namespace Converge.Testkit.Scenario

/-! ## 1. Members -/

def text? (j : Json) (k : String) : Option String := (j.get? k).bind Json.str?

def text (j : Json) (k : String) : String := (text? j k).getD ""

def nat? (j : Json) (k : String) : Option Nat := (j.get? k).bind Json.nat?

def nat (j : Json) (k : String) : Nat := (nat? j k).getD 0

def int (j : Json) (k : String) : Int :=
  match j.get? k with
  | some (.int n) => n
  | _ => 0

def flag (j : Json) (k : String) (default : Bool) : Bool :=
  match j.get? k with
  | some (.bool b) => b
  | _ => default

def list (j : Json) (k : String) : List Json := ((j.get? k).map Json.items).getD []

def texts (j : Json) (k : String) : List String := (list j k).filterMap Json.str?

def part (j : Json) (k : String) : Json := (j.get? k).getD (.obj [])

/-! ## 2. Rows and events -/

/-- The row of an object of texts. -/
def rowOf (j : Json) : Row :=
  .ofList (j.members.filterMap fun (k, v) => v.str?.map fun s => (k, s))

def row (j : Json) (k : String) : Row := rowOf (part j k)

/-- A row, or none for anything but an object. -/
def row? (j : Json) (k : String) : Option Row :=
  match j.get? k with
  | some (.obj ms) => some (rowOf (.obj ms))
  | _ => none

/-- A span, in seconds and nanoseconds. -/
def duration? (j : Json) (k : String) : Option Duration :=
  (j.get? k).map fun d => .ofNanos (nat d "secs" * 1000000000 + nat d "nanos")

def duration (j : Json) (k : String) : Duration := (duration? j k).getD .zero

def rowKey (j : Json) : RowKey := ⟨text j "table", text j "key"⟩

def event (j : Json) : ChangeEvent :=
  ⟨rowKey j, if text j "op" == "DEL" then .del else .set, row j "row"⟩

def delta (j : Json) : RowDelta := ⟨rowKey j, row? j "old", row? j "new"⟩

/-- Puts rows into a snapshot one after another. -/
def fill (s : Snapshot) : List Json → Except Error Snapshot
  | [] => .ok s
  | .arr [.str t, .str k, r] :: rest =>
    match s.insert ⟨t, k⟩ (rowOf r) with
    | .ok s => fill s rest
    | .error e => .error e
  | _ :: rest => fill s rest

def snapshot (j : Json) : Except Error Snapshot :=
  fill (Snapshot.tracking (texts j "tables")) (list j "rows")

/-! ## 3. Actions and commands -/

def unitVerb (word : String) : UnitVerb :=
  ([.stop, .disable, .mask, .unmask, .enable, .start, .restart].find? fun v =>
    UnitVerb.word v == word).getD .stop

def action (j : Json) : Action :=
  match text j "kind" with
  | "service" => .service (text j "unit") (unitVerb (text j "verb"))
  | "file" => .writeFile (text j "path") (text j "content")
  | "remove_file" => .removeFile (text j "path")
  | "rule" => .rule (if text j "rule_op" == "add" then .add else .remove) (texts j "spec")
  | _ => .managerReload

def actions (j : Json) (k : String) : List Action := (list j k).map action

/-- The actions in the text of a JSON array. -/
def actionsOfText (s : String) : List Action :=
  ((Json.Reader.parse s).getD (.arr [])).items.map action

def fault (j : Json) : IoFault :=
  match j.get? "os" with
  | some (.int n) => .os n
  | _ =>
    let kind : FaultKind :=
      match text j "kind" with
      | "NotFound" => .notFound
      | "PermissionDenied" => .permissionDenied
      | "InvalidInput" => .invalidInput
      | "BrokenPipe" => .brokenPipe
      | _ => .other
    .named kind (text? j "message")

def error (j : Json) : Error :=
  match text j "kind" with
  | "StoreUnavailable" => .storeUnavailable (text j "operation") (text j "message")
  | "UnknownTable" => .unknownTable (text j "table")
  | "Policy" => .policy (text j "table") (text j "key") (text j "message")
  | "MalformedEvent" => .malformedEvent (text j "source") (text j "message")
  | "CommandSpawn" => .commandSpawn (text j "command") (fault (part j "io"))
  | "CommandTimeout" => .commandTimeout (text j "command") (duration j "timeout")
  | "CommandFailed" => .commandFailed (text j "command") (int j "exit_code") (text j "output")
  | "Io" => .io (text j "path") (fault (part j "io"))
  | "Config" => .config (text j "field") (text j "message")
  | _ => .internal (text j "message")

def exec (j : Json) : ExecResult := ⟨int j "exit", text j "stdout", text j "stderr"⟩

def scriptedAnswer (j : Json) : ScriptedAnswer :=
  if flag j "timeout" false then .timesOut
  else
    match j.get? "error" with
    | some e => .fails (error e)
    | none => .ends (exec j)

def rules (j : Json) (k : String) : List ScriptRule :=
  (list j k).map fun r => ⟨text r "contains", scriptedAnswer (part r "reply"), nat? r "times"⟩

/-- A command; without a limit of its own it has the usual one. -/
def command (j : Json) : CommandSpec :=
  let c := CommandSpec.ofArgv (texts j "argv")
  let c := ((duration? j "timeout").map c.withTimeout).getD c
  ((text? j "stdin").map c.withStdin).getD c

/-! ## 4. Settings -/

def word64 (j : Json) (k : String) (default : UInt64) : UInt64 :=
  ((nat? j k).map Nat.toUInt64).getD default

def storeConfig (j : Json) : StoreConfig :=
  let d : StoreConfig := {}
  { host := (text? j "redis_host").getD d.host
    port := ((nat? j "redis_port").map Nat.toUInt16).getD d.port
    configDb := ((nat? j "config_db_number").map Nat.toUInt32).getD d.configDb
    statusDb := ((nat? j "state_db_number").map Nat.toUInt32).getD d.statusDb }

def loopConfig (j : Json) : LoopConfig :=
  let d : LoopConfig := {}
  { selectTimeoutMs := word64 j "select_timeout_ms" d.selectTimeoutMs
    backoffInitialMs := word64 j "backoff_initial_ms" d.backoffInitialMs
    backoffMaxMs := word64 j "backoff_max_ms" d.backoffMaxMs
    resyncIntervalSecs := word64 j "resync_interval_secs" d.resyncIntervalSecs }

def executorConfig (j : Json) : ExecutorConfig :=
  let d : ExecutorConfig := {}
  { commandTimeoutSecs := word64 j "command_timeout_secs" d.commandTimeoutSecs
    maxParallel := word64 j "max_parallel" d.maxParallel
    commandPrefix := texts j "command_prefix"
    systemctlPath := (text? j "systemctl_path").getD d.systemctlPath
    iptablesPath := (text? j "iptables_path").getD d.iptablesPath }

def commonConfig (j : Json) : CommonConfig :=
  ⟨storeConfig (part j "store"), loopConfig (part j "daemon"), executorConfig (part j "executor")⟩

def featureConfig (j : Json) : FeatureConfig :=
  let own := part j "featured"
  let d : FeatureSection := {}
  ⟨commonConfig j, (text? own "systemd_dir").getD d.unitDir, word64 own "num_asics" d.chips⟩

def bmpConfig (j : Json) : BmpConfig :=
  let d : BmpSection := {}
  ⟨commonConfig j, ⟨(text? (part j "bmpcfgd") "bmp_unit").getD d.unit⟩⟩

/-! ## 5. Files -/

/-- The bytes of a file: a text, or a list of numbers. -/
def content : Json → List UInt8
  | .str s => Text.encode s
  | j => j.items.filterMap fun b => b.nat?.map Nat.toUInt8

/-- Puts files and directories into a tree, with the directories above them. -/
def plant (t : Files.Tree) : List (String × Json) → Files.Tree
  | [] => t
  | (path, .null) :: rest => plant (Files.makeDirs .sound path.length t path).1 rest
  | (path, j) :: rest =>
    let above := Files.directoryOf path
    let t := (Files.makeDirs .sound above.length t above).1
    match t.write path (content j) with
    | .ok t => plant t rest
    | .error _ => plant t rest

/-- A host without anything but the usual directories, and one for tests. -/
def bareTree (testDir : String) : Files.Tree :=
  let dirs := ["/bin", "/dev", "/etc", "/proc", "/root", "/sbin", "/sys", "/tmp", "/usr",
    "/usr/bin", "/usr/local", "/usr/local/bin", "/usr/sbin", "/var", testDir]
  let files := ["/dev/null", "/etc/passwd", "/etc/hostname", "/etc/hosts"]
  let t := dirs.foldl (fun (t : Files.Tree) d => t.put d .dir) .empty
  files.foldl (fun (t : Files.Tree) f => t.put f (.file [])) t

end Converge.Testkit.Scenario
