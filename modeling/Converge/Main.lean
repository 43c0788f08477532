import Converge.Rehearsal

/-!
# The command line

Rehearses a daemon: reads its settings file, then an event from each line of input, and prints what
the daemon would do. The work is that of `Invocation` and `Rehearsal`.
-/

namespace Converge.Main

/-- The text of a file, or nothing if it is not there. -/
def settingsText (path : String) : IO (Option String) := do
  try
    return some (← IO.FS.readFile path)
  catch e =>
    match e with
    | .noFileOrDirectory .. => return none
    | e => throw e

/-- Meets the events of the input, line by line. -/
partial def rehearse (input : IO.FS.Stream) (r : Rehearsal) : IO Unit := do
  let line ← input.getLine
  if line.isEmpty then return
  let (lines, r) := r.meet line
  for l in lines do
    IO.println l
  rehearse input r

end Converge.Main

open Converge in
def main (args : List String) : IO UInt32 := do
  match Invocation.parse args with
  | .error message =>
    IO.eprintln message
    return 2
  | .ok i =>
    match Rehearsal.start i (← Main.settingsText i.path) with
    | .error e =>
      IO.eprintln e.message
      return 1
    | .ok r =>
      Main.rehearse (← IO.getStdin) r
      return 0
