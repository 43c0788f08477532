import Converge.Json

/-!
# Audit entries

An entry tells who did what on the host and how it came out. Entries are built step by step:
`Entry.of` starts one in progress, the `with…` functions add to it, and **`withError` also marks
the entry as a failure**.

`Outcome.level` says how loud an entry is: success is information, failures and skipped actions
are warnings, an entry in progress is for debugging.
-/

namespace Converge.Audit

/-! ## 1. Categories and outcomes -/

/-- What an entry is about. -/
inductive Category where
  /-- A verb on a service unit. -/
  | serviceControl
  /-- A file written or removed. -/
  | fileChange
  /-- A firewall rule. -/
  | firewallRule
  /-- A row that a daemon worked on. -/
  | configurationChange
  /-- The start and the end of a daemon. -/
  | systemLifecycle
  /-- A request of an administrator. -/
  | adminAction
  /-- An error. -/
  | errorCondition
deriving DecidableEq, Repr

instance : Inhabited Category := ⟨.serviceControl⟩

/-- The name of a category. -/
def Category.name : Category → String
  | .serviceControl => "SERVICE_CONTROL"
  | .fileChange => "FILE_CHANGE"
  | .firewallRule => "FIREWALL_RULE"
  | .configurationChange => "CONFIGURATION_CHANGE"
  | .systemLifecycle => "SYSTEM_LIFECYCLE"
  | .adminAction => "ADMIN_ACTION"
  | .errorCondition => "ERROR_CONDITION"

def Category.all : List Category :=
  [.serviceControl, .fileChange, .firewallRule, .configurationChange, .systemLifecycle,
    .adminAction, .errorCondition]

/-- The category of a name. -/
def Category.ofName? (s : String) : Option Category := Category.all.find? fun c => c.name == s

theorem Category.ofName?_name (c : Category) : Category.ofName? c.name = some c := by
  cases c <;> decide

/-- How an action came out. -/
inductive Outcome where
  | success
  | failure
  | inProgress
  /-- Not tried, because an earlier action on the resource failed. -/
  | skipped
deriving DecidableEq, Repr

instance : Inhabited Outcome := ⟨.inProgress⟩

/-- How loud an entry is. -/
inductive Level where
  | debug
  | info
  | warn
deriving DecidableEq, Repr

def Level.name : Level → String
  | .debug => "DEBUG"
  | .info => "INFO"
  | .warn => "WARN"

namespace Outcome

/-- The word that people read. -/
def word : Outcome → String
  | .success => "success"
  | .failure => "failure"
  | .inProgress => "in_progress"
  | .skipped => "skipped"

/-- The word inside written records: one word without a joint. -/
def tag : Outcome → String
  | .success => "success"
  | .failure => "failure"
  | .inProgress => "inprogress"
  | .skipped => "skipped"

/-- The outcome of a word inside a written record. -/
def ofTag? : String → Option Outcome
  | "success" => some .success
  | "failure" => some .failure
  | "inprogress" => some .inProgress
  | "skipped" => some .skipped
  | _ => none

theorem ofTag?_tag (o : Outcome) : ofTag? o.tag = some o := by cases o <;> rfl

def level : Outcome → Level
  | .success => .info
  | .inProgress => .debug
  | .failure | .skipped => .warn

end Outcome

/-! ## 2. Entries -/

/-- Who did what, and how it came out. -/
structure Entry where
  category : Category
  /-- The daemon or component that acted. -/
  source : String
  action : String
  outcome : Outcome
  /-- The name of what was touched. -/
  resource : Option String
  details : Option Json
  error : Option String
  /-- The name shared by the entries of one row. -/
  correlationId : Option String

namespace Entry

/-- An entry in progress. -/
def of (category : Category) (source action : String) : Entry :=
  ⟨category, source, action, .inProgress, none, none, none, none⟩

def withOutcome (e : Entry) (o : Outcome) : Entry := { e with outcome := o }

def withResource (e : Entry) (r : String) : Entry := { e with resource := some r }

def withDetails (e : Entry) (d : Json) : Entry := { e with details := some d }

/-- Adds an error and marks the entry as a failure. -/
def withError (e : Entry) (message : String) : Entry :=
  { e with error := some message, outcome := .failure }

def withCorrelationId (e : Entry) (id : String) : Entry := { e with correlationId := some id }

/-- The line that goes to the log. -/
def headline (e : Entry) : String :=
  "AUDIT: " ++ e.category.name ++ " - " ++ e.action ++ " - " ++ e.outcome.word

/-- The named texts that go to the log with the line; the error only with a warning. -/
def logFields (e : Entry) : List (String × String) :=
  [("category", e.category.name), ("source", e.source), ("action", e.action),
    ("outcome", e.outcome.word), ("resource", e.resource.getD "")] ++
  (if e.outcome.level = .warn then [("error", e.error.getD "")] else []) ++
  [("message", e.headline)]

/-- The members of the written form, in order; what is absent is left out. -/
def members (e : Entry) : List (String × Json) :=
  [("category", .str e.category.name), ("source", .str e.source), ("action", .str e.action),
    ("outcome", .str e.outcome.tag)] ++
  (e.resource.map fun r => ("resource", Json.str r)).toList ++
  (e.details.map fun d => ("details", d)).toList ++
  (e.error.map fun m => ("error", Json.str m)).toList ++
  (e.correlationId.map fun i => ("correlation_id", Json.str i)).toList

end Entry

end Converge.Audit
