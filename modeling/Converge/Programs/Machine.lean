import Converge.Executor.Host
import Converge.Files.Atomic
import Converge.Programs.Shell.Run
import Converge.Text.Blank

/-!
# A machine with programs

A machine is a file tree and the programs of this library. `Machine.run` runs a command there: it
fails if the words name no program or if the time is up; otherwise it gives both outputs as text,
without blanks at either end. `Machine.host` shows a machine on a medium as a host.

A program that ends without reading its input leaves the writer with a broken pipe, if there was
more input than a pipe holds.
-/

namespace Converge.Programs.Machine

/-- The number of bytes that a pipe holds. -/
def pipeCapacity : Nat := 65536

/-- The fault of writing to a pipe that nobody reads. -/
def brokenPipe : IoFault := .os 32

/-- An output as text. -/
def shown (bytes : List UInt8) : String := Text.trim (Text.decode bytes)

/-- What a program left behind; a program that was killed has the code -1. -/
def resultOf (ending : Ending) (s : Session) : ExecResult :=
  ⟨match ending with
    | .exited code => code
    | .killed _ => -1,
    shown (s.bytesOf .out), shown (s.bytesOf .err)⟩

/-- **Runs a command.** -/
def run (c : CommandSpec) (files : Files.Tree) : Except Error ExecResult × Files.Tree :=
  let spawnError (fault : IoFault) : Error := .commandSpawn c.display fault
  if c.argv.isEmpty then (.error (.internal "empty command argv"), files)
  else if c.argv.any fun a => a.toList.contains '\x00' then (.error (spawnError .nulInWord), files)
  else
    match Shell.launch c.argv { input := Text.encode (c.stdin.getD ""), files } with
    | .error fault => (.error (spawnError fault), files)
    | .ok (ending, s) =>
      if pipeCapacity < s.input.length then (.error (spawnError brokenPipe), s.files)
      else if c.timeout ≤ s.elapsed then (.error (.commandTimeout c.display c.timeout), s.files)
      else (.ok (resultOf ending s), s.files)

/-- A machine as a host. The medium is under the files that the host itself writes and removes. -/
def host (m : Files.Medium) : Host Files.Tree where
  run := run
  writeFile path content files :=
    let (files, r) := Files.writeAtomic m files path content
    (r, files)
  removeFile path files :=
    let (files, r) := Files.remove m files path
    (r, files)

end Converge.Programs.Machine
