import Converge.Json
import Converge.Policy

/-!
# Scripted policies

Policies for tests: fixed plans, plans that show what the policy was asked, refusals and
breakdowns, and plans that the row itself carries.
-/

namespace Converge.Testkit

/-- How a scripted policy plans. -/
inductive ScriptedPlan where
  /-- Always the same actions. -/
  | fixed (actions : List Action)
  /-- One rule that names the table, the key, the old and the new row. -/
  | echo
  | refuses (message : String)
  | breaksDown (message : Option String)
  /-- What the row says: field `error` refuses, field `panic` breaks down, field `actions` holds
      the actions. A removed row's actions are in the field `on_delete` of the old row. -/
  | carried

/-- What a scripted policy publishes. -/
inductive ScriptedStatus where
  | nothing
  /-- The row, with the key and whether it was applied. -/
  | echo
  | breaksDown

/-- A row as an object of texts. -/
def rowJson (row : Row) : Json := Json.object (row.entries.map fun (k, v) => (k, .str v))

/-- The plan that a row carries; `read` reads a list of actions. -/
def carriedPlan (read : String → List Action) (old new : Row) :
    Except PolicyFault (List Action) :=
  match new.get? "error", new.get? "panic" with
  | some message, _ => .error (.refused message)
  | none, some message => .error (.brokeDown (some message))
  | none, none =>
    match new.get? "actions", old.get? "on_delete" with
    | some text, _ => .ok (read text)
    | none, some text => .ok (read text)
    | none, none => .ok []

namespace ScriptedPlan

/-- The answer of a plan. -/
def answer (p : ScriptedPlan) (read : String → List Action) (id : RowKey) (old new : Row) :
    Except PolicyFault (List Action) :=
  match p with
  | .fixed actions => .ok actions
  | .echo =>
    .ok [.rule .add [id.table, id.key, (rowJson old).compact, (rowJson new).compact]]
  | .refuses message => .error (.refused message)
  | .breaksDown message => .error (.brokeDown message)
  | .carried => carriedPlan read old new

end ScriptedPlan

namespace ScriptedStatus

/-- The status row that is published. -/
def answer (s : ScriptedStatus) (key : String) (row : Row) (applied : Bool) :
    Except PolicyFault (Option Row) :=
  match s with
  | .nothing => .ok none
  | .echo => .ok (some ((row.insert "key" key).insert "applied" (toString applied)))
  | .breaksDown => .error (.brokeDown none)

end ScriptedStatus

/-- A scripted policy; `read` reads the lists of actions that rows carry. -/
def scriptedPolicy (read : String → List Action) (plan : ScriptedPlan) (status : ScriptedStatus) :
    Policy where
  plan := plan.answer read
  status := status.answer

end Converge.Testkit
