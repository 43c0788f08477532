import Converge.Programs.Format

/-!
# Small programs

The programs that scripts and tests are made of. Each is a `Program`; `tool?` finds one by its
name. A program that cannot read a file says so on its error output and ends with code one.
-/

namespace Converge.Programs

/-- The end of a program that did its work. -/
def done (s : Session) : Ending × Session := (.exited 0, s)

/-- The end of a program that refuses its arguments. -/
def refuse (s : Session) (message : String) : Ending × Session :=
  (.exited 1, s.complain (message ++ "\n"))

/-! ## 1. Writing -/

/-- The arguments in one text, with or without reading escapes and a line feed at the end. -/
def writeLine (rule : Option EscapeRule) (line : Bool) : Program := fun args s =>
  let text := " ".intercalate args
  let e : Escaped := ((rule.map fun r => unescape r text).getD ⟨Text.encode text, false⟩)
  done (s.put .out (e.bytes ++ if line && !e.stops then [10] else []))

/-- The arguments in one line. With `-n` the line does not end, and with `-e` escapes are read. -/
def echo (escapes line : Bool) : Program
  | "-n" :: args, s => echo escapes false args s
  | "-e" :: args, s => echo true line args s
  | "-E" :: args, s => echo false line args s
  | args, s => writeLine (if escapes then some ⟨true, true⟩ else none) line args s

/-- The arguments under a format. -/
def printf (hex : Bool) (name : String) : Program
  | "--" :: format :: args, s => printf hex name (format :: args) s
  | format :: args, s =>
    let (bytes, faults) := Format.render hex format args
    let s := faults.foldl (fun s fault => s.complain (name ++ ": " ++ fault ++ "\n")) s
    (.exited (if faults.isEmpty then 0 else 1), s.put .out bytes)
  | [], s =>
    refuse s (name ++ ": missing operand\nTry '" ++ name ++ " --help' for more information.")

/-- The numbers from the first to the last argument, each in a line. -/
def countUp : Program := fun args s =>
  let lines (first step last : Int) : Ending × Session :=
    if step = 0 then refuse s "seq: invalid Zero increment value: '0'"
    else
      let n := ((last - first) / step + 1).toNat
      let line (i : Nat) : String := toString (first + step * i) ++ "\n"
      done (s.say (String.join ((List.range n).map line)))
  match args.mapM integer? with
  | some [last] => lines 1 1 last
  | some [first, last] => lines first 1 last
  | some [first, step, last] => lines first step last
  | _ => refuse s "seq: invalid argument"

/-! ## 2. Reading -/

/-- The bytes under all names, one after another; without a name all that can be read. -/
def gather (program : String) (names : List String) (s : Session) : Nat × List UInt8 × Session :=
  let names := if names.isEmpty then ["-"] else names
  names.foldl
    (fun (code, bytes, s) name =>
      match s.bytesUnder name with
      | .ok (more, s) => (code, bytes ++ more, s)
      | .error (.os n) =>
        (1, bytes, s.complain (program ++ ": " ++ name ++ ": " ++ IoFault.osText n ++ "\n"))
      | .error _ => (1, bytes, s.complain (program ++ ": " ++ name ++ ": Invalid argument\n")))
    (0, [], s)

/-- Writes what it reads. -/
def cat : Program := fun args s =>
  let (code, bytes, s) := gather "cat" args s
  (.exited code, s.put .out bytes)

/-- The pieces between line feeds. -/
def byteLines (bytes : List UInt8) : List (List UInt8) :=
  let (first, others) := bytes.foldr
    (fun b ((first, others) : List UInt8 × List (List UInt8)) =>
      if b = 10 then ([], first :: others) else (b :: first, others))
    ([], [])
  first :: others

/-- The number of words in a text. -/
def wordCount (s : String) : Nat :=
  (s.toList.foldl
    (fun (n, inside) c =>
      if c.isWhitespace then (n, false) else (if inside then n else n + 1, true))
    ((0, false) : Nat × Bool)).1

/-- A number at the right of a column. -/
def column (width n : Nat) : String :=
  let t := toString n
  String.ofList (List.replicate (width - t.length) ' ') ++ t

/-- Counts lines, words, bytes or characters. -/
def count : Program := fun args s =>
  let asked := args.filter fun a => a.startsWith "-" && a != "-"
  let names := args.filter fun a => !(a.startsWith "-" && a != "-")
  let (code, bytes, s) := gather "wc" names s
  let text := Text.decode bytes
  let letters := asked.flatMap fun a => a.toList.drop 1
  let letters := if letters.isEmpty then ['l', 'w', 'c'] else letters
  let numbers := (['l', 'w', 'm', 'c'].filter letters.contains).map fun c =>
    match c with
    | 'l' => (bytes.filter (· = 10)).length
    | 'w' => wordCount text
    | 'm' => text.length
    | _ => bytes.length
  let width := if numbers.length ≤ 1 then 1 else if names.isEmpty then 7 else
    (toString bytes.length).length
  let name := match names with
    | [n] => " " ++ n
    | _ => ""
  if code ≠ 0 then (.exited code, s)
  else done (s.say (" ".intercalate (numbers.map (column width)) ++ name ++ "\n"))

/-- How many lines or bytes are asked for, and the names. -/
def extent : List String → Option (Bool × Nat × List String)
  | "-n" :: n :: names => n.toNat?.map fun n => (true, n, names)
  | "-c" :: n :: names => n.toNat?.map fun n => (false, n, names)
  | arg :: names =>
    match arg.toList with
    | '-' :: 'n' :: cs => (natOf? 10 cs).map fun n => (true, n, names)
    | '-' :: 'c' :: cs => (natOf? 10 cs).map fun n => (false, n, names)
    | '-' :: c :: cs => (natOf? 10 (c :: cs)).map fun n => (true, n, names)
    | _ => some (true, 10, arg :: names)
  | [] => some (true, 10, [])

/-- Lines put together again. -/
def joinLines (lines : List (List UInt8)) : List UInt8 := [10].intercalate lines

/-- The number of bytes that are read at a time. -/
def blockSize : Nat := 8192

/-- The first lines or bytes. Of the input no more is read than whole blocks up to what is shown. -/
def head : Program := fun args s =>
  match extent args with
  | none => refuse s "head: invalid number of lines"
  | some (byLines, n, names) =>
    let input := s.input
    let (code, bytes, s) := gather "head" names s
    let lines := byteLines bytes
    let shown :=
      if !byLines then bytes.take n
      else if lines.length ≤ n then bytes
      else joinLines (lines.take n) ++ if n = 0 then [] else [10]
    let used :=
      if !byLines then n
      else if lines.length ≤ n then input.length
      else (shown.length + blockSize - 1) / blockSize * blockSize
    let s := if names.isEmpty || names == ["-"] then { s with input := input.drop used } else s
    (.exited code, s.put .out shown)

/-- The last lines or bytes. -/
def tail : Program := fun args s =>
  match extent args with
  | none => refuse s "tail: invalid number of lines"
  | some (byLines, n, names) =>
    let (code, bytes, s) := gather "tail" names s
    let lines := byteLines bytes
    let complete := lines.getLast? = some []
    let n := if complete then n + 1 else n
    let shown :=
      if byLines then joinLines (lines.drop (lines.length - n))
      else bytes.drop (bytes.length - n)
    (.exited code, s.put .out shown)

/-! ## 3. Waiting -/

/-- A span of time: a decimal number, with a letter for its unit. -/
def span? (s : String) : Option Duration :=
  let (cs, unit) : List Char × Nat :=
    match s.toList.reverse with
    | 's' :: cs => (cs.reverse, 1)
    | 'm' :: cs => (cs.reverse, 60)
    | 'h' :: cs => (cs.reverse, 3600)
    | 'd' :: cs => (cs.reverse, 86400)
    | _ => (s.toList, 1)
  let whole := cs.takeWhile (· != '.')
  let part := (cs.dropWhile (· != '.')).drop 1
  if whole.isEmpty && part.isEmpty then none
  else
    match (if whole.isEmpty then some 0 else natOf? 10 whole),
        (if part.isEmpty then some 0 else natOf? 10 part) with
    | some w, some p =>
      let scale := Nat.pow 10 part.length
      some (.ofNanos ((w * scale + p) * unit * 1000000000 / scale))
    | _, _ => none

/-- Lets time go by. -/
def sleep : Program := fun args s =>
  let hint := "\nTry 'sleep --help' for more information."
  if args.isEmpty then refuse s ("sleep: missing operand" ++ hint)
  else if args.contains "infinity" then done s.hang
  else
    match args.find? fun a => (span? a).isNone with
    | some a => refuse s ("sleep: invalid time interval '" ++ a ++ "'" ++ hint)
    | none =>
      done { s with
        elapsed := (args.filterMap span?).foldl (fun (t d : Duration) => t + d) s.elapsed }

/-! ## 4. Conditions -/

/-- Whether a condition holds; `none` if it is none. -/
def condition? (files : Files.Tree) : List String → Option Bool
  | [] => some false
  | "!" :: rest => (condition? files rest).map (!·)
  | ["-n", a] => some (!a.isEmpty)
  | ["-z", a] => some a.isEmpty
  | ["-d", p] => some (files.isDir p)
  | ["-f", p] => some (files.read p).isOk
  | ["-e", p] => some (files.keyOf? p).isSome
  | [a] => some (!a.isEmpty)
  | [a, op, b] =>
    let numbers (test : Int → Int → Bool) : Option Bool :=
      match integer? a, integer? b with
      | some m, some n => some (test m n)
      | _, _ => none
    match op with
    | "=" | "==" => some (a == b)
    | "!=" => some (a != b)
    | "-eq" => numbers (· == ·)
    | "-ne" => numbers (· != ·)
    | "-lt" => numbers fun m n => decide (m < n)
    | "-le" => numbers fun m n => decide (m ≤ n)
    | "-gt" => numbers fun m n => decide (n < m)
    | "-ge" => numbers fun m n => decide (n ≤ m)
    | _ => none
  | _ => none

/-- Ends with zero if a condition holds. -/
def test (name : String) : Program := fun args s =>
  match condition? s.files args with
  | some true => (.exited 0, s)
  | some false => (.exited 1, s)
  | none => (.exited 2, s.complain (name ++ ": syntax error\n"))

/-- Ends with zero if a condition in brackets holds. -/
def testInBrackets : Program := fun args s =>
  match args.getLast? with
  | some "]" => test "[" args.dropLast s
  | _ => (.exited 2, s.complain "[: missing ']'\n")

/-! ## 5. All programs -/

/-- The program of a name. -/
def tool? : String → Option Program
  | "true" => some fun _ s => (.exited 0, s)
  | "false" => some fun _ s => (.exited 1, s)
  | "echo" => some (echo false true)
  | "printf" => some (printf true "printf")
  | "seq" => some countUp
  | "cat" => some cat
  | "wc" => some count
  | "head" => some head
  | "tail" => some tail
  | "sleep" => some sleep
  | "yes" => some fun _ s => done s.hang
  | "test" => some (test "test")
  | "[" => some testInBrackets
  | _ => none

end Converge.Programs
