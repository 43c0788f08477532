import Converge.Programs.Lookup
import Converge.Programs.Shell.Arithmetic
import Converge.Programs.Shell.Reader
import Converge.SortedMap

/-!
# The shell between two commands

`Shell` holds the variables, the arguments and the result of the last command. `Shell.expand` turns
words into the arguments of a command: values come in place of their names, and what is not quoted
falls apart at blanks. Scripts inside words are run by a function that is handed in (`Capture`).
-/

namespace Converge.Programs

/-- The shell between two commands. -/
structure Shell where
  session : Session
  /-- The name under which the shell runs. -/
  name : String
  args : List String
  vars : SortedMap String String := .empty
  /-- The code with which the last command ended. -/
  last : Nat := 0
  /-- Signals that the shell does not mind. -/
  ignored : List String := []
  /-- A word could not be expanded, which ends the shell. -/
  broken : Bool := false

namespace Shell

/-- What scripts see as the number of the shell. -/
def number : String := "1000"

/-- A message of the shell. -/
def complain (sh : Shell) (text : String) : Shell :=
  { sh with session := sh.session.complain (sh.name ++ ": 1: " ++ text ++ "\n") }

def assign (sh : Shell) (name value : String) : Shell :=
  { sh with vars := sh.vars.insert name value }

/-- The value of a name; the empty text if it has none. -/
def value (sh : Shell) (name : String) : String :=
  match name with
  | "?" => toString sh.last
  | "#" => toString sh.args.length
  | "$" => number
  | "0" => sh.name
  | "@" | "*" => " ".intercalate sh.args
  | name =>
    match name.toNat? with
    | some n => sh.args.getD (n - 1) ""
    | none => (sh.vars.get? name).getD ""

/-- The value of a name in an expression. -/
def numberOf (sh : Shell) (name : String) : Int := (integer? (sh.value name)).getD 0

/-- Runs the text of a script and answers with its output. -/
abbrev Capture := String → Shell → String × Shell

/-- The arguments that a word has given so far, newest first, and the one that is not complete. -/
structure Fields where
  done : List String := []
  current : Option String := none

namespace Fields

/-- Adds a text to the argument that is not complete. -/
def add (f : Fields) (text : String) : Fields :=
  { f with current := some (f.current.getD "" ++ text) }

/-- Completes an argument. -/
def close (f : Fields) : Fields :=
  match f.current with
  | some a => ⟨a :: f.done, none⟩
  | none => f

/-- Adds a text that falls apart at blanks. -/
def scatter (f : Fields) (text : String) : Fields :=
  text.toList.foldl
    (fun f c => if c = ' ' ∨ c = '\t' ∨ c = '\n' then f.close else f.add c.toString) f

/-- Adds the value of a piece. -/
def put (f : Fields) (quoted : Bool) (text : String) : Fields :=
  if quoted then f.add text else f.scatter text

/-- Adds arguments as they are. -/
def putAll (f : Fields) : List String → Fields
  | [] => f
  | [a] => f.add a
  | a :: rest => putAll (f.add a).close rest

def toList (f : Fields) : List String := f.close.done.reverse

end Fields

/-- Adds a piece of a word. -/
def expandPiece (capture : Capture) (p : Piece) (f : Fields) (sh : Shell) : Fields × Shell :=
  match p with
  | .plain t _ => (f.add t, sh)
  | .value "@" none true => (f.putAll sh.args, sh)
  | .value name fallback quoted =>
    let v := sh.value name
    (f.put quoted (if v.isEmpty then fallback.getD "" else v), sh)
  | .number e quoted =>
    match Arithmetic.eval? sh.numberOf e with
    | some n => (f.put quoted (toString n), sh)
    | none =>
      let why := if e.toList.any (fun c => c == '/' || c == '%') then "division by zero"
        else "expecting primary"
      (f, { sh.complain ("arithmetic expression: " ++ why ++ ": \"" ++ e ++ "\"") with
        broken := true })
  | .output script quoted =>
    let (text, sh) := capture script sh
    (f.put quoted text, sh)

/-- The arguments that a word stands for. -/
def expandWord (capture : Capture) (w : Word) (sh : Shell) : List String × Shell :=
  let (f, sh) := w.foldl (fun (f, sh) p => expandPiece capture p f sh) (({} : Fields), sh)
  (f.toList, sh)

/-- The text that a word stands for; nothing falls apart. -/
def expandText (capture : Capture) (w : Word) (sh : Shell) : String × Shell :=
  let whole : Piece → Piece
    | .plain t _ => .plain t true
    | .value n d _ => .value n d true
    | .number e _ => .number e true
    | .output s _ => .output s true
  let (l, sh) := expandWord capture (w.map whole) sh
  (" ".intercalate l, sh)

/-- The arguments that words stand for. -/
def expand (capture : Capture) (ws : List Word) (sh : Shell) : List String × Shell :=
  ws.foldl
    (fun (l, sh) w =>
      let (l', sh) := expandWord capture w sh
      (l ++ l', sh))
    ([], sh)

/-- The name and the value of a word that gives a variable its value. -/
def assignment? : Word → Option (String × Word)
  | .plain t false :: rest =>
    let cs := t.toList
    let name := cs.takeWhile isNameChar
    match name, cs.dropWhile isNameChar with
    | c :: _, '=' :: value =>
      if isNameStart c then
        some (String.ofList name,
          if value.isEmpty then rest else .plain (String.ofList value) false :: rest)
      else none
    | _, _ => none
  | _ => none

end Converge.Programs.Shell
