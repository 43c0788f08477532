import Converge.Duration
import Converge.Files.Tree

/-!
# Programs at work

A program reads its input, writes to two outputs and may look at and change files, until it comes
to an end. A `Session` is all that programs share while they work: what can still be read, what was
written, the files, and the time that has gone by; a program without an end takes longer than any
limit. A `Program` takes its arguments and a session to
an `Ending` and the session after it.

What was written is kept piece by piece, so that the outputs of a program can be led elsewhere
after it has ended (`Session.redirect`).
-/

namespace Converge.Programs

/-- How a program ends. -/
inductive Ending where
  | exited (code : Nat)
  | killed (signal : Nat)
deriving DecidableEq, Repr

/-- The two outputs of a program. -/
inductive Stream where
  | out
  | err
deriving DecidableEq, Repr

/-- What programs share while they work. -/
structure Session where
  /-- What can still be read. -/
  input : List UInt8
  /-- What was written, the newest first. -/
  written : List (Stream × List UInt8) := []
  files : Files.Tree
  /-- The time that the programs took. -/
  elapsed : Duration := .zero

/-- A program: its arguments, without its own name, and the session in which it works. -/
abbrev Program := List String → Session → Ending × Session

/-- A time that is longer than any limit on run time. -/
def forever : Duration := .ofSecs 0x10000000000000000

namespace Session

/-- Works without an end. -/
def hang (s : Session) : Session := { s with elapsed := s.elapsed + forever }

/-- Writes bytes. -/
def put (s : Session) (stream : Stream) (bytes : List UInt8) : Session :=
  if bytes.isEmpty then s else { s with written := (stream, bytes) :: s.written }

/-- Writes a text to the output. -/
def say (s : Session) (text : String) : Session := s.put .out (Text.encode text)

/-- Writes a text to the error output. -/
def complain (s : Session) (text : String) : Session := s.put .err (Text.encode text)

/-- All bytes that were written to an output. -/
def bytesOf (s : Session) (stream : Stream) : List UInt8 :=
  (s.written.reverse.filter fun w => w.1 = stream).flatMap (·.2)

/-- The bytes under a name: a file, all that can be read, or nothing. -/
def bytesUnder (s : Session) (name : String) : Except IoFault (List UInt8 × Session) :=
  if name == "-" || name == "/dev/stdin" then .ok (s.input, { s with input := [] })
  else if name == "/dev/null" then .ok ([], s)
  else (s.files.read name).map fun bytes => (bytes, s)

/-- Where an output is led. -/
inductive Target where
  | stream (stream : Stream)
  | file (path : String)
  | nowhere
deriving DecidableEq, Repr

/-- Writes bytes to the end of a file. -/
def append (s : Session) (path : String) (bytes : List UInt8) : Session :=
  let before := (s.files.read path).toOption.getD []
  match s.files.write path (before ++ bytes) with
  | .ok files => { s with files }
  | .error _ => s

/-- Leads a piece of output to its target. -/
def lead (s : Session) (target : Stream → Target) (piece : Stream × List UInt8) : Session :=
  match target piece.1 with
  | .stream stream => s.put stream piece.2
  | .file path => s.append path piece.2
  | .nowhere => s

/-- Leads all that was written since a moment to its targets. -/
def redirect (s : Session) (before : List (Stream × List UInt8)) (target : Stream → Target) :
    Session :=
  s.written.reverse.foldl (fun s piece => s.lead target piece) { s with written := before }

end Session

end Converge.Programs
