/-!
# Actions on the host

An action is an operation on the host that may be repeated without harm. `resource` names what it
touches: actions on one resource run in order, and once one of them fails the later ones are
skipped.

* `priority` orders an unordered set of actions: files, the reload of the service manager, unit
  verbs from `stop` to `restart`, rules;
* `sortByPriority` sorts by it and leaves actions of one priority in their order.
-/

namespace Converge

/-! ## 1. The kinds of action -/

/-- The verbs of a service unit, in the order in which they sort. -/
inductive UnitVerb where
  | stop
  | disable
  | mask
  | unmask
  | enable
  | start
  | restart
deriving DecidableEq, Repr

/-- The word of the unit manager's command line. -/
def UnitVerb.word : UnitVerb → String
  | .stop => "stop"
  | .disable => "disable"
  | .mask => "mask"
  | .unmask => "unmask"
  | .enable => "enable"
  | .start => "start"
  | .restart => "restart"

/-- The place among the verbs. -/
def UnitVerb.rank : UnitVerb → Nat
  | .stop => 0
  | .disable => 1
  | .mask => 2
  | .unmask => 3
  | .enable => 4
  | .start => 5
  | .restart => 6

/-- What happens to a firewall rule. -/
inductive RuleChange where
  | add
  | remove
deriving DecidableEq, Repr

/-- The flag of the rule command. -/
def RuleChange.flag : RuleChange → String
  | .add => "-A"
  | .remove => "-D"

/-- The word of audit records. -/
def RuleChange.word : RuleChange → String
  | .add => "add"
  | .remove => "remove"

/-- An operation on the host. -/
inductive Action where
  /-- A verb on a service unit. -/
  | service (unit : String) (verb : UnitVerb)
  /-- Writes a file as a whole. -/
  | writeFile (path content : String)
  /-- Removes a file; a missing file is as good. -/
  | removeFile (path : String)
  /-- Adds or removes a firewall rule; `spec` begins with the chain. -/
  | rule (change : RuleChange) (spec : List String)
  /-- Makes the service manager read its files again. -/
  | managerReload
deriving DecidableEq, Repr

namespace Action

/-! ## 2. What an action touches, and when -/

/-- The name of what the action touches. -/
def resource : Action → String
  | .service unit _ => "unit:" ++ unit
  | .writeFile path _ => "file:" ++ path
  | .removeFile path => "file:" ++ path
  | .rule _ spec => "rule:" ++ spec.headD ""
  | .managerReload => "service-manager"

/-- The place in a sorted set of actions. -/
def priority : Action → Nat
  | .writeFile .. | .removeFile .. => 0
  | .managerReload => 1
  | .service _ verb => 2 + verb.rank
  | .rule .. => 10

/-- Sorts by priority; equal ones keep their order. -/
def sortByPriority (actions : List Action) : List Action :=
  actions.mergeSort fun a b => a.priority ≤ b.priority

/-! ## 3. Words -/

/-- The word for the action in audit records. -/
def verb : Action → String
  | .service _ verb => verb.word
  | .writeFile .. => "write_file"
  | .removeFile .. => "remove_file"
  | .rule .add _ => "add_rule"
  | .rule .remove _ => "remove_rule"
  | .managerReload => "daemon-reload"

/-- The action in a line. -/
def describe : Action → String
  | .service unit verb => verb.word ++ " " ++ unit
  | .writeFile path _ => "write " ++ path
  | .removeFile path => "remove " ++ path
  | .rule change spec => "rule " ++ change.flag ++ " " ++ " ".intercalate spec
  | .managerReload => "daemon-reload"

end Action

end Converge
