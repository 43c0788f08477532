import Converge.Command

/-!
# A host that only records commands

`Recorder` stands in for a real host: it notes the words of every command and answers with success,
unless a rule says otherwise. A rule that lets a command run out of time goes before one that lets
it fail.
-/

namespace Converge.Testkit

/-- Which commands a rule is about. -/
inductive CommandMatcher where
  /-- The text occurs in the command line. -/
  | lineContains (text : String)
  /-- The words are these. -/
  | argvIs (argv : List String)
  /-- One of the words is this. -/
  | hasWord (word : String)

def CommandMatcher.accepts (m : CommandMatcher) (argv : List String) : Bool :=
  match m with
  | .lineContains text => Text.occurs text (" ".intercalate argv)
  | .argvIs expected => argv == expected
  | .hasWord word => argv.contains word

/-- The commands so far, oldest first, and the rules. -/
structure Recorder where
  calls : List (List String) := []
  failures : List CommandMatcher := []
  timeouts : List CommandMatcher := []

namespace Recorder

/-- Notes a command and answers. -/
def run (r : Recorder) (spec : CommandSpec) : Except Error ExecResult × Recorder :=
  let noted := { r with calls := r.calls ++ [spec.argv] }
  if r.timeouts.any fun m => m.accepts spec.argv then
    (.error (.commandTimeout spec.display spec.timeout), noted)
  else if r.failures.any fun m => m.accepts spec.argv then
    (.ok ⟨1, "", "Error: injected failure for '" ++ spec.display ++ "'"⟩, noted)
  else (.ok ⟨0, "", ""⟩, noted)

def failWhen (r : Recorder) (m : CommandMatcher) : Recorder :=
  { r with failures := r.failures ++ [m] }

def timeOutWhen (r : Recorder) (m : CommandMatcher) : Recorder :=
  { r with timeouts := r.timeouts ++ [m] }

def clearRules (r : Recorder) : Recorder := { r with failures := [], timeouts := [] }

def clear (r : Recorder) : Recorder := { r with calls := [] }

/-- The commands as lines. -/
def lines (r : Recorder) : List String := r.calls.map fun argv => " ".intercalate argv

/-- The number of lines that contain a text. -/
def count (r : Recorder) (text : String) : Nat := (r.lines.filter (Text.occurs text)).length

def describe (r : Recorder) : String :=
  "RecordingRunner \x7b calls: " ++ toString r.calls.length ++ " \x7d"

end Recorder

end Converge.Testkit
