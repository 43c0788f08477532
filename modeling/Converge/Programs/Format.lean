import Converge.Programs.Session

/-!
# Texts with escapes and formats

`unescape` reads the escapes of a text: `\n` and its kin, `\\`, bytes in octal (`\101`, or `\0101`
where a zero is asked for) and `\c`, which ends all output.

`Format.render` writes arguments under a format: a directive such as `%5d` takes the next argument,
and the format is used again until no argument is left.
-/

namespace Converge.Programs

/-! ## 1. Numbers -/

/-- The value of a digit below a base. -/
def digitBelow? (base : Nat) (c : Char) : Option Nat :=
  let d? : Option Nat :=
    if '0' ≤ c ∧ c ≤ '9' then some (c.toNat - '0'.toNat)
    else if 'a' ≤ c ∧ c ≤ 'z' then some (c.toNat - 'a'.toNat + 10)
    else if 'A' ≤ c ∧ c ≤ 'Z' then some (c.toNat - 'A'.toNat + 10)
    else none
  d?.filter (· < base)

/-- The number of digits in a base. -/
def natOf? (base : Nat) (cs : List Char) : Option Nat :=
  if cs.isEmpty then none
  else (cs.mapM (digitBelow? base)).map fun ds => ds.foldl (fun n d => n * base + d) 0

/-- A whole number without sign: decimal, octal after a zero, or hexadecimal after `0x`. -/
def unsigned? : List Char → Option Nat
  | '0' :: 'x' :: cs => natOf? 16 cs
  | '0' :: 'X' :: cs => natOf? 16 cs
  | '0' :: c :: cs => natOf? 8 (c :: cs)
  | cs => natOf? 10 cs

/-- A whole number with or without sign. -/
def integer? (s : String) : Option Int :=
  match s.toList with
  | '-' :: cs => (unsigned? cs).map fun n => -(n : Int)
  | '+' :: cs => (unsigned? cs).map fun n => (n : Int)
  | cs => (unsigned? cs).map fun n => (n : Int)

/-! ## 2. Escapes -/

/-- The longest octal number at the beginning, of so many digits at most. -/
def takeOctal (acc : Nat) : Nat → List Char → Nat × List Char
  | 0, cs => (acc, cs)
  | _ + 1, [] => (acc, [])
  | n + 1, c :: cs =>
    match digitBelow? 8 c with
    | some d => takeOctal (acc * 8 + d) n cs
    | none => (acc, c :: cs)

/-- The byte of an escape with a single letter. -/
def letterByte? : Char → Option Nat
  | 'a' => some 7
  | 'b' => some 8
  | 'f' => some 12
  | 'n' => some 10
  | 'r' => some 13
  | 't' => some 9
  | 'v' => some 11
  | '\\' => some 92
  | _ => none

/-- Bytes, and whether all output ends with them. -/
structure Escaped where
  bytes : List UInt8
  stops : Bool := false

/-- Which escapes there are besides those of a letter. -/
structure EscapeRule where
  /-- A number in octal begins with a zero. -/
  zeroLed : Bool
  /-- There are numbers in hexadecimal. -/
  hex : Bool

/-- The escape after a backslash, and what is behind it. -/
def escape (rule : EscapeRule) : List Char → Escaped × List Char
  | [] => (⟨[92], false⟩, [])
  | 'c' :: cs => (⟨[], true⟩, cs)
  | 'x' :: c :: cs =>
    match (if rule.hex then digitBelow? 16 c else none), cs.head?.bind (digitBelow? 16) with
    | some d, some d' => (⟨[(16 * d + d').toUInt8], false⟩, cs.drop 1)
    | some d, none => (⟨[d.toUInt8], false⟩, cs)
    | none, _ => (⟨[92, 120], false⟩, c :: cs)
  | c :: cs =>
    match letterByte? c with
    | some b => (⟨[b.toUInt8], false⟩, cs)
    | none =>
      if rule.zeroLed then
        if c = '0' then
          let (n, cs) := takeOctal 0 3 cs
          (⟨[n.toUInt8], false⟩, cs)
        else (⟨92 :: Text.encode c.toString, false⟩, cs)
      else if (digitBelow? 8 c).isSome then
        let (n, cs) := takeOctal 0 3 (c :: cs)
        (⟨[n.toUInt8], false⟩, cs)
      else if c = '"' then (⟨[34], false⟩, cs)
      else (⟨92 :: Text.encode c.toString, false⟩, cs)

/-- Reads the escapes of a text; `fuel` bounds its length. -/
def unescapeWithin (rule : EscapeRule) : Nat → List Char → Escaped
  | _, [] => ⟨[], false⟩
  | 0, _ => ⟨[], false⟩
  | fuel + 1, '\\' :: cs =>
    let (e, cs) := escape rule cs
    if e.stops then e
    else
      let rest := unescapeWithin rule fuel cs
      ⟨e.bytes ++ rest.bytes, rest.stops⟩
  | fuel + 1, c :: cs =>
    let rest := unescapeWithin rule fuel cs
    ⟨Text.encode c.toString ++ rest.bytes, rest.stops⟩

/-- Reads the escapes of a text. -/
def unescape (rule : EscapeRule) (s : String) : Escaped := unescapeWithin rule s.length s.toList

/-! ## 3. Formats -/

namespace Format

/-- What follows a percent sign. -/
structure Directive where
  left : Bool := false
  zero : Bool := false
  plus : Bool := false
  blank : Bool := false
  width : Nat := 0
  precision : Option Nat := none
  letter : Char

/-- Reads flags. -/
def flags (d : Directive) : List Char → Directive × List Char
  | '-' :: cs => flags { d with left := true } cs
  | '0' :: cs => flags { d with zero := true } cs
  | '+' :: cs => flags { d with plus := true } cs
  | ' ' :: cs => flags { d with blank := true } cs
  | '#' :: cs => flags d cs
  | cs => (d, cs)

/-- Reads a number, zero if there is none. -/
def number (cs : List Char) : Nat × List Char :=
  ((natOf? 10 (cs.takeWhile Char.isDigit)).getD 0, cs.dropWhile Char.isDigit)

/-- Reads what follows a percent sign. -/
def directive? (cs : List Char) : Option (Directive × List Char) :=
  let (d, cs) := flags { letter := 's' } cs
  let (width, cs) := number cs
  let (precision, cs) : Option Nat × List Char :=
    match cs with
    | '.' :: cs => let (n, cs) := number cs; (some n, cs)
    | cs => (none, cs)
  match cs with
  | letter :: cs => some ({ d with width, precision, letter }, cs)
  | [] => none

/-- Fills up to the width. -/
def pad (d : Directive) (bytes : List UInt8) : List UInt8 :=
  let blanks := List.replicate (d.width - bytes.length) 32
  if d.left then bytes ++ blanks else blanks ++ bytes

/-- A number with its sign, filled up to the width. -/
def padNumber (d : Directive) (negative : Bool) (digits : String) : List UInt8 :=
  let sign := if negative then "-" else if d.plus then "+" else if d.blank then " " else ""
  let digits := match d.precision with
    | some p => String.ofList (List.replicate (p - digits.length) '0') ++ digits
    | none => digits
  if d.zero && !d.left && d.precision.isNone then
    let zeros := List.replicate (d.width - sign.length - digits.length) '0'
    Text.encode (sign ++ String.ofList zeros ++ digits)
  else pad d (Text.encode (sign ++ digits))

def upperHex (cs : List Char) : List Char := cs.map Char.toUpper

/-- The number of an argument: an empty one is zero, and a quote stands for the character
    after it. -/
def argument? (arg : String) : Option Int :=
  match arg.toList with
  | [] => some 0
  | '\'' :: c :: _ => some c.toNat
  | '"' :: c :: _ => some c.toNat
  | _ => integer? arg

/-- What a run over the format has done so far. -/
structure Progress where
  /-- What was written, the newest piece first. -/
  pieces : List (List UInt8) := []
  args : List String
  /-- A directive has taken an argument, or would have. -/
  took : Bool := false
  stopped : Bool := false
  /-- Messages about arguments and directives that are none. -/
  faults : List String := []

namespace Progress

def write (p : Progress) (bytes : List UInt8) : Progress := { p with pieces := bytes :: p.pieces }

/-- Takes the next argument, the empty one if none is left. -/
def take (p : Progress) : String × Progress :=
  (p.args.headD "", { p with args := p.args.tail, took := true })

/-- Stops at a directive that is none. -/
def refuse (p : Progress) (directive : String) : Progress :=
  { p with
    stopped := true
    faults := p.faults ++ [directive ++ ": invalid conversion specification"] }

/-- Writes the next argument under a directive. -/
def obey (hex : Bool) (p : Progress) (d : Directive) : Progress :=
  if d.letter = '%' then p.write [37]
  else
    let (arg, p) := p.take
    let cut (bytes : List UInt8) : List UInt8 := (d.precision.map bytes.take).getD bytes
    let numeric (write : Int → List UInt8) : Progress :=
      match argument? arg with
      | some n => p.write (write n)
      | none =>
        { p.write (write 0) with
          faults := p.faults ++ ["'" ++ arg ++ "': expected a numeric value"] }
    let base (b : Nat) (n : Int) : List Char := Nat.toDigits b (n % 0x10000000000000000).toNat
    match d.letter with
    | 's' => p.write (pad d (cut (Text.encode arg)))
    | 'b' =>
      let e := unescape ⟨true, hex⟩ arg
      { p.write (pad d (cut e.bytes)) with stopped := e.stops }
    | 'c' => p.write (pad d ((Text.encode arg).take 1))
    | 'd' | 'i' => numeric fun n => padNumber d (decide (n < 0)) (toString n.natAbs)
    | 'u' => numeric fun n => padNumber d false (String.ofList (base 10 n))
    | 'o' => numeric fun n => padNumber d false (String.ofList (base 8 n))
    | 'x' => numeric fun n => padNumber d false (String.ofList (base 16 n))
    | 'X' => numeric fun n => padNumber d false (String.ofList (upperHex (base 16 n)))
    | c => p.refuse ("%" ++ c.toString)

end Progress

/-- One run over the format; `fuel` bounds its length. -/
def pass (hex : Bool) : Nat → List Char → Progress → Progress
  | 0, _, p => p
  | _, [], p => p
  | fuel + 1, '\\' :: cs, p =>
    let (e, cs) := escape ⟨false, hex⟩ cs
    let p := p.write e.bytes
    if e.stops then { p with stopped := true } else pass hex fuel cs p
  | fuel + 1, '%' :: cs, p =>
    match directive? cs with
    | some (d, cs) =>
      let p := p.obey hex d
      if p.stopped then p else pass hex fuel cs p
    | none => p.refuse "%"
  | fuel + 1, c :: cs, p => pass hex fuel cs (p.write (Text.encode c.toString))

/-- Uses the format again until no argument is left; `fuel` bounds the number of arguments. -/
def passes (hex : Bool) (format : String) : Nat → Progress → Progress
  | 0, p => p
  | fuel + 1, p =>
    let p := pass hex format.length format.toList { p with took := false }
    if p.stopped || p.args.isEmpty || !p.took then p else passes hex format fuel p

/-- Arguments under a format, with or without escapes in hexadecimal: the bytes, and messages about
    what is wrong with them. -/
def render (hex : Bool) (format : String) (args : List String) : List UInt8 × List String :=
  let p := passes hex format (args.length + 1) { args }
  (p.pieces.reverse.flatten, p.faults)

end Format

end Converge.Programs
