import Converge.Action
import Converge.Config.Sections
import Converge.Executor.Host

/-!
# Chains of actions

A chain is the list of actions of one row. It runs strictly in order and never breaks off: every
action has a report.

* An action is skipped if an earlier action on its resource did not succeed (`runActions` carries
  the resources that are spoiled); otherwise it is applied to the host.
* Every action, skipped or not, leaves one audit entry, after the command that it ran.
* A command that ends with a code other than zero fails with the first error line of its error
  output, or with all of its output if there is none.
-/

namespace Converge

/-! ## 1. How an action came out -/

/-- Why an action failed. -/
inductive ActionFailure where
  /-- The command ended with a code other than zero. -/
  | exit (code : Int) (message : String)
  /-- The command ran longer than it may. -/
  | timeout (after : Duration)
  /-- The command could not be started. -/
  | spawn (message : String)
  /-- The file could not be written or removed. -/
  | io (message : String)
deriving DecidableEq, Repr

/-- The wording of a failure. -/
def ActionFailure.text : ActionFailure → String
  | .exit code message => "exit code " ++ toString code ++ ": " ++ message
  | .timeout after => "timed out after " ++ after.text
  | .spawn message => "spawn failed: " ++ message
  | .io message => "io error: " ++ message

/-- How an action came out. -/
inductive ActionOutcome where
  | success
  | failed (failure : ActionFailure)
  /-- Not tried, for the given reason. -/
  | skipped (reason : String)
deriving DecidableEq, Repr

def ActionOutcome.isSuccess : ActionOutcome → Bool
  | .success => true
  | _ => false

/-- An action and how it came out. -/
structure ActionReport where
  action : Action
  outcome : ActionOutcome
deriving DecidableEq, Repr

/-! ## 2. One action -/

/-- What runs actions on a host. -/
structure Executor (σ : Type) where
  host : Host σ
  config : ExecutorConfig
  /-- The name that audit entries give as their source. -/
  source : String := "reconcile"

/-- The words of the command behind an action; for a file there are only the words in front. -/
def ExecutorConfig.argvFor (c : ExecutorConfig) (a : Action) : List String :=
  c.commandPrefix ++
    match a with
    | .service unit verb => [c.systemctlPath, verb.word, unit]
    | .managerReload => [c.systemctlPath, "daemon-reload"]
    | .rule change spec => c.iptablesPath :: change.flag :: spec
    | .writeFile .. | .removeFile .. => []

/-- The command behind an action. -/
def ExecutorConfig.commandFor (c : ExecutorConfig) (a : Action) : CommandSpec :=
  (CommandSpec.ofArgv (c.argvFor a)).withTimeout c.commandTimeout

/-- The outcome of an action whose command has run. -/
def outcomeOfExec : Except Error ExecResult → ActionOutcome
  | .ok r =>
    if r.success then .success
    else .failed (.exit r.exitCode (r.errorLine.getD r.combinedOutput))
  | .error (.commandTimeout _ timeout) => .failed (.timeout timeout)
  | .error e => .failed (.spawn e.message)

/-- The outcome of an action on a file. -/
def outcomeOfFile (path : String) : Except IoFault Unit → ActionOutcome
  | .ok _ => .success
  | .error fault => .failed (.io (path ++ ": " ++ fault.text))

/-- The file is gone, whether it was there or not. -/
def forgiveMissing : Except IoFault Unit → Except IoFault Unit
  | .error fault => if fault.isMissing then .ok () else .error fault
  | .ok u => .ok u

namespace Executor

variable {σ : Type}

/-- Applies an action to the host. -/
def apply (ex : Executor σ) (a : Action) (s : σ) : Ran σ ActionOutcome :=
  match a with
  | .writeFile path content =>
    let (r, s) := ex.host.writeFile path content s
    .idle (outcomeOfFile path r) s
  | .removeFile path =>
    let (r, s) := ex.host.removeFile path s
    .idle (outcomeOfFile path (forgiveMissing r)) s
  | a =>
    let command := ex.config.commandFor a
    let (r, s) := ex.host.run command s
    ⟨outcomeOfExec r, s, [.call command]⟩

/-! ## 3. Audit entries -/

/-- What the entry of an action is about. -/
def categoryOf : Action → Audit.Category
  | .service .. | .managerReload => .serviceControl
  | .writeFile .. | .removeFile .. => .fileChange
  | .rule .. => .firewallRule

/-- The entry of an action before its outcome is known. -/
def entryOf (source : String) (correlation : Option String) (a : Action) : Audit.Entry :=
  let entry := (Audit.Entry.of (categoryOf a) source a.verb).withResource a.resource
  let entry :=
    match correlation with
    | some id => entry.withCorrelationId id
    | none => entry
  match a with
  | .rule change spec =>
    entry.withDetails (Json.object [("op", .str change.word), ("spec", Json.texts spec)])
  | _ => entry

/-- The entry with the outcome of the action; a skipped action gives its reason as the error. -/
def entryWithOutcome (entry : Audit.Entry) : ActionOutcome → Audit.Entry
  | .success => entry.withOutcome .success
  | .failed failure => entry.withError failure.text
  | .skipped reason => (entry.withError reason).withOutcome .skipped

/-! ## 4. Chains -/

/-- Why an action on a spoiled resource is skipped. -/
def skipReason (resource : String) : String :=
  "earlier action on " ++ resource ++ " did not succeed"

/-- One action of a chain, given the resources on which an action did not succeed. -/
def attempt (ex : Executor σ) (spoiled : List String) (a : Action) (s : σ) : Ran σ ActionOutcome :=
  if spoiled.contains a.resource then .idle (.skipped (skipReason a.resource)) s else ex.apply a s

/-- The resources on which an action did not succeed, after one more action. -/
def spoil (spoiled : List String) (a : Action) (o : ActionOutcome) : List String :=
  if o.isSuccess then spoiled else a.resource :: spoiled

/-- One action of a chain with the audit entry behind it. -/
def act (ex : Executor σ) (correlation : Option String) (spoiled : List String) (a : Action)
    (s : σ) : Ran σ ActionOutcome :=
  let done := ex.attempt spoiled a s
  let entry := entryWithOutcome (entryOf ex.source correlation a) done.value
  { done with deeds := done.deeds ++ [.audit entry] }

/-- Runs actions in order, given the resources on which an action did not succeed before. -/
def runActions (ex : Executor σ) (correlation : Option String) :
    List String → List Action → σ → Ran σ (List ActionReport)
  | _, [], s => .idle [] s
  | spoiled, a :: rest, s =>
    (ex.act correlation spoiled a s).andThen fun outcome s =>
      (ex.runActions correlation (spoil spoiled a outcome) rest s).andThen fun later s =>
        .idle (⟨a, outcome⟩ :: later) s

/-- Runs a chain that belongs to no row. -/
def execute (ex : Executor σ) (actions : List Action) (s : σ) : Ran σ (List ActionReport) :=
  ex.runActions none [] actions s

/-- The executor as messages show it. -/
def describe (ex : Executor σ) : String :=
  "ActionExecutor \x7b config: " ++ ex.config.describe ++ ", source: " ++ Text.quoted ex.source ++
    " \x7d"

end Executor

end Converge
