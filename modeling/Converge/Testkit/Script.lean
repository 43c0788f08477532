import Converge.Daemon.Scene
import Converge.Files.Atomic

/-!
# A scripted host

`Bench` is a whole host for tests: answers to commands that follow a list of rules, a file tree and
a store. `Bench.host`, `Bench.feed` and `Bench.sink` show it as a host, as a store to follow and as
a place for status rows.

A command is answered by the first rule whose text occurs in the command line and which is not
used up; without such a rule it ends with code zero and without output.
-/

namespace Converge.Testkit

/-- The answer that a rule gives. -/
inductive ScriptedAnswer where
  /-- The command comes to an end. -/
  | ends (result : ExecResult)
  /-- The command runs out of its own time. -/
  | timesOut
  | fails (error : Error)

/-- An answer for some commands. -/
structure ScriptRule where
  text : String
  answer : ScriptedAnswer
  /-- How often the rule may still be used; without a number as often as you like. -/
  left : Option Nat

namespace ScriptRule

def accepts (r : ScriptRule) (line : String) : Bool :=
  r.left != some 0 && Text.occurs r.text line

def reply (r : ScriptRule) (spec : CommandSpec) : Except Error ExecResult :=
  match r.answer with
  | .ends result => .ok result
  | .timesOut => .error (.commandTimeout spec.display spec.timeout)
  | .fails e => .error e

/-- The rule after it was used. -/
def used (r : ScriptRule) : ScriptRule := { r with left := r.left.map (· - 1) }

/-- The answer to a command and the rules after it. -/
def answerBy (spec : CommandSpec) : List ScriptRule → Except Error ExecResult × List ScriptRule
  | [] => (.ok ⟨0, "", ""⟩, [])
  | r :: rest =>
    if r.accepts spec.display then (r.reply spec, r.used :: rest)
    else
      let (answer, rest) := answerBy spec rest
      (answer, r :: rest)

end ScriptRule

/-- A whole host for tests. -/
structure Bench where
  rules : List ScriptRule := []
  files : Files.Tree := .empty
  /-- What lies under the files. -/
  medium : Files.Medium := .sound
  store : Store.Memory := {}
  /-- Loads from the store fail with this error. -/
  failLoad : Option Error := none

namespace Bench

/-- The bench as a host. -/
def host : Host Bench where
  run spec b :=
    let (answer, rules) := ScriptRule.answerBy spec b.rules
    (answer, { b with rules })
  writeFile path content b :=
    let (files, r) := Files.writeAtomic b.medium b.files path content
    (r, { b with files })
  removeFile path b :=
    let (files, r) := Files.remove b.medium b.files path
    (r, { b with files })

/-- What an operation of the store yields, and the bench after it. -/
def onStore {α : Type} (b : Bench) (r : α × Store.Memory) : α × Bench :=
  (r.1, { b with store := r.2 })

/-- The bench as a store to follow. -/
def feed : Feed Bench where
  subscribe tables b := b.onStore (b.store.subscribe tables)
  load tables b :=
    match b.failLoad with
    | some e => (.error e, b)
    | none => b.onStore (b.store.load tables)
  poll sub b := b.onStore (b.store.poll sub)
  release sub b := { b with store := b.store.dropSubscription sub }

/-- The bench as a place for status rows. -/
def sink : StatusSink Bench where
  set id row b := b.onStore (b.store.setStatus id row)
  clear id b := b.onStore (b.store.clearStatus id)

end Bench

end Converge.Testkit
