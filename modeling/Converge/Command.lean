import Converge.Error
import Converge.Text.Search

/-!
# Commands

A command is a list of words, never a line for a shell, with a limit on its run time. `ExecResult`
is what a command that came to an end left behind.
-/

namespace Converge

/-- A command to run. -/
structure CommandSpec where
  /-- The program and its arguments. -/
  argv : List String
  /-- What the command can read. -/
  stdin : Option String
  timeout : Duration
deriving DecidableEq, Repr

namespace CommandSpec

/-- The limit of a command that names none. -/
def defaultTimeout : Duration := .ofSecs 60

def ofArgv (argv : List String) : CommandSpec := ⟨argv, none, defaultTimeout⟩

def withTimeout (c : CommandSpec) (timeout : Duration) : CommandSpec := { c with timeout }

def withStdin (c : CommandSpec) (input : String) : CommandSpec := { c with stdin := some input }

/-- The words in one line, for messages only. -/
def display (c : CommandSpec) : String := " ".intercalate c.argv

end CommandSpec

/-- The end of a command. -/
structure ExecResult where
  /-- The exit code; -1 if a signal ended the command. -/
  exitCode : Int
  stdout : String
  stderr : String
deriving DecidableEq, Repr, Inhabited

/-- The first line that contains the word `Error`. -/
def firstErrorLine (output : String) : Option String :=
  (Text.lines output).find? (Text.occurs "Error")

namespace ExecResult

def success (r : ExecResult) : Bool := r.exitCode == 0

/-- Both outputs, with a line feed between them if both are there. -/
def combinedOutput (r : ExecResult) : String :=
  if r.stderr.isEmpty then r.stdout
  else if r.stdout.isEmpty then r.stderr
  else r.stdout ++ "\n" ++ r.stderr

/-- The line of the error output that is shown to callers. -/
def errorLine (r : ExecResult) : Option String := firstErrorLine r.stderr

/-- The output of a command that succeeded; any other end is an error. -/
def outputOf (c : CommandSpec) (r : ExecResult) : Except Error String :=
  if r.success then .ok r.stdout
  else .error (.commandFailed c.display r.exitCode r.combinedOutput)

end ExecResult

end Converge
