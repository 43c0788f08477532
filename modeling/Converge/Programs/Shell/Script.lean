import Converge.Programs.Session

/-!
# Scripts

A `Script` is what the shell runs: commands, put together in order, by their success, as branches
and as loops. The words of a command are lists of pieces, since a word can be put together from
text, values and the output of other scripts.
-/

namespace Converge.Programs.Shell

/-- A part of a word. What is not quoted falls apart at blanks. -/
inductive Piece where
  | plain (text : String) (quoted : Bool)
  /-- The value of a variable, or a text in place of a value that is missing or empty. -/
  | value (name : String) (fallback : Option String) (quoted : Bool)
  /-- The value of an expression. -/
  | number (expression : String) (quoted : Bool)
  /-- The output of a script. -/
  | output (script : String) (quoted : Bool)
deriving DecidableEq, Repr

abbrev Word := List Piece

/-- Where the streams of a command lead. -/
inductive Lead where
  | toStream (source target : Stream)
  | toFile (source : Stream) (append : Bool) (path : Word)
  | fromFile (path : Word)
deriving DecidableEq, Repr

/-- A script. -/
inductive Script where
  | nothing
  | simple (words : List Word) (leads : List Lead)
  | pipe (a b : Script)
  /-- One after the other. -/
  | both (a b : Script)
  /-- The second one if the first one succeeds. -/
  | andThen (a b : Script)
  /-- The second one if the first one fails. -/
  | orElse (a b : Script)
  /-- Fails if the script succeeds. -/
  | invert (a : Script)
  | branch (condition yes no : Script)
  /-- Runs the body as long as the condition succeeds, or, if `until`, as long as it fails. -/
  | loop (untilSuccess : Bool) (condition body : Script)
  /-- Runs the body for every value of a variable. -/
  | each (name : String) (values : List Word) (body : Script)
  /-- A script with streams of its own, and if `isolated` with variables of its own. -/
  | group (isolated : Bool) (body : Script) (leads : List Lead)
deriving Repr

end Converge.Programs.Shell
