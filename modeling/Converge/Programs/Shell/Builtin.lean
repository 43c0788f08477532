import Converge.Programs.Shell.State

/-!
# Commands of the shell itself

Commands that change the shell or end it, and commands of which the shell has a form of its own.
`builtin?` finds them by name.
-/

namespace Converge.Programs.Shell

/-- How a shell goes on after a command. -/
inductive Flow where
  /-- With the next command. -/
  | goes
  /-- Behind the loop. -/
  | breaks
  /-- With the next round of the loop. -/
  | skips
  /-- Not at all; the last code is its own. -/
  | exits
  | killed (signal : Nat)
deriving DecidableEq, Repr

/-- A command of the shell itself. -/
abbrev Builtin := List String → Shell → Flow × Shell

namespace Builtin

/-- Ends with a code. -/
def codeOf (code : Nat) (sh : Shell) : Flow × Shell := (.goes, { sh with last := code })

/-- A program as a command of the shell. -/
def ofProgram (p : Program) : Builtin := fun args sh =>
  match p args sh.session with
  | (.exited code, session) => (.goes, { sh with session, last := code })
  | (.killed signal, session) => (.goes, { sh with session, last := 128 + signal })

/-- Ends the shell. -/
def exit : Builtin := fun args sh =>
  match args with
  | [] => (.exits, sh)
  | a :: _ =>
    match a.toNat? with
    | some n => (.exits, { sh with last := n % 256 })
    | none => (.exits, { sh.complain ("exit: Illegal number: " ++ a) with last := 2 })

/-- The numbers of signals by their names. -/
def signals : List (String × Nat) :=
  [("HUP", 1), ("INT", 2), ("QUIT", 3), ("ILL", 4), ("TRAP", 5), ("ABRT", 6), ("BUS", 7),
    ("FPE", 8), ("KILL", 9), ("USR1", 10), ("SEGV", 11), ("USR2", 12), ("PIPE", 13), ("ALRM", 14),
    ("TERM", 15), ("CHLD", 17), ("CONT", 18), ("STOP", 19), ("TSTP", 20), ("TTIN", 21),
    ("TTOU", 22), ("URG", 23), ("XCPU", 24), ("XFSZ", 25), ("WINCH", 28)]

/-- The number of a signal. -/
def signalNumber? (word : String) : Option Nat :=
  match word.toNat? with
  | some n => some n
  | none => (signals.find? fun s => s.1 == word || "SIG" ++ s.1 == word).map (·.2)

/-- Sends a signal to the shell. -/
def raise (signal : Nat) (sh : Shell) : Flow × Shell :=
  let name := ((signals.find? fun s => s.2 == signal).map (·.1)).getD ""
  let ignored := sh.ignored.contains name && signal != 9 && signal != 19
  if signal = 0 || ignored || [17, 18, 23, 28].contains signal then codeOf 0 sh
  else if [19, 20, 21, 22].contains signal then
    (.exits, { sh with session := sh.session.hang })
  else (.killed signal, sh)

/-- Sends a signal. -/
def kill : Builtin := fun args sh =>
  let (signal?, targets) : Option Nat × List String :=
    match args with
    | "-s" :: s :: rest => (signalNumber? s, rest)
    | a :: rest =>
      match a.toList with
      | '-' :: cs => (signalNumber? (String.ofList cs), rest)
      | _ => (some 15, a :: rest)
    | [] => (some 15, [])
  match signal? with
  | none => codeOf 2 (sh.complain "kill: Illegal option")
  | some signal =>
    if targets.contains Shell.number then raise signal sh
    else codeOf 1 (sh.complain "kill: No such process")

/-- Drops backslashes that protect the character behind them. -/
def plainLine : List Char → List Char
  | '\\' :: c :: cs => c :: plainLine cs
  | ['\\'] => []
  | c :: cs => c :: plainLine cs
  | [] => []

def isGap (c : Char) : Bool := c == ' ' || c == '\t'

/-- Gives the fields of a line to variables; the last one gets the rest of the line. -/
def assignFields (sh : Shell) : List String → List Char → Shell
  | [], _ => sh
  | [name], cs =>
    let cs := ((cs.dropWhile isGap).reverse.dropWhile isGap).reverse
    sh.assign name (String.ofList cs)
  | name :: names, cs =>
    let cs := cs.dropWhile isGap
    assignFields (sh.assign name (String.ofList (cs.takeWhile (!isGap ·)))) names
      (cs.dropWhile (!isGap ·))

/-- Reads a line. -/
def read : Builtin := fun args sh =>
  let raw := args.contains "-r"
  let names := args.filter (· != "-r")
  let input := sh.session.input
  let line := input.takeWhile (· ≠ 10)
  let rest := input.dropWhile (· ≠ 10)
  let cs := (Text.decode line).toList
  let sh := { sh with session := { sh.session with input := rest.drop 1 } }
  codeOf (if rest.isEmpty then 1 else 0) (assignFields sh names (if raw then cs else plainLine cs))

/-- Lets the shell not mind signals, if the first argument is empty. -/
def trap : Builtin := fun args sh =>
  match args with
  | "" :: names =>
    let plain := names.map fun n => ((signals.find? fun s => toString s.2 == n).map (·.1)).getD n
    codeOf 0 { sh with ignored := plain ++ sh.ignored }
  | _ => codeOf 0 sh

/-- Forgets arguments, or takes others. -/
def shift : Builtin := fun args sh =>
  codeOf 0 { sh with args := sh.args.drop ((args.head?.bind String.toNat?).getD 1) }

def set : Builtin := fun args sh =>
  match args with
  | "--" :: rest => codeOf 0 { sh with args := rest }
  | _ => codeOf 0 sh

/-- Gives variables their values. -/
def export_ : Builtin := fun args sh =>
  codeOf 0 (args.foldl (fun (sh : Shell) a =>
    match Text.splitFirst '=' a with
    | some (name, value) => sh.assign name value
    | none => sh) sh)

def unset : Builtin := fun args sh =>
  codeOf 0 { sh with vars := args.foldl (fun m a => m.erase a) sh.vars }

end Builtin

/-- The command of the shell itself that has a name. -/
def builtin? : String → Option Builtin
  | ":" | "cd" | "wait" | "umask" => some fun _ sh => Builtin.codeOf 0 sh
  | "true" => some fun _ sh => Builtin.codeOf 0 sh
  | "false" => some fun _ sh => Builtin.codeOf 1 sh
  | "echo" => some (.ofProgram fun args s =>
      match args with
      | "-n" :: args => writeLine (some ⟨true, false⟩) false args s
      | args => writeLine (some ⟨true, false⟩) true args s)
  | "printf" => some (.ofProgram (Programs.printf false "printf"))
  | "test" => some (.ofProgram (Programs.test "test"))
  | "[" => some (.ofProgram testInBrackets)
  | "exit" | "return" => some Builtin.exit
  | "break" => some fun _ sh => (.breaks, { sh with last := 0 })
  | "continue" => some fun _ sh => (.skips, { sh with last := 0 })
  | "kill" => some Builtin.kill
  | "read" => some Builtin.read
  | "trap" => some Builtin.trap
  | "shift" => some Builtin.shift
  | "set" => some Builtin.set
  | "export" | "local" | "readonly" => some Builtin.export_
  | "unset" => some Builtin.unset
  | _ => none

end Converge.Programs.Shell
