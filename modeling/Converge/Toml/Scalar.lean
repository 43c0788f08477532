import Converge.Timestamp
import Converge.Toml.Value

/-!
# Values without quotes

A value without quotes is one word: a truth value, an integer, a number with a fraction, or a
moment. `ofWord?` tells which.

* Digits may be parted by single underscores. A decimal integer has no leading zero and may have a
  sign; in base two, eight and sixteen there is a mark in front, and no sign.
* An integer fits 128 bits, and a number with a fraction does not exceed the greatest binary
  fraction of 64 bits.
* A moment is a day, a time of day, or both with or without the distance of the zone.
-/

namespace Converge.Toml.Scalar

/-! ## 1. Digits -/

/-- The digits of a list in which single underscores part digits. -/
def digits? (isDigit : Char → Bool) : List Char → Option (List Char)
  | [] => none
  | [c] => if isDigit c then some [c] else none
  | c :: '_' :: rest =>
    if isDigit c then (digits? isDigit rest).map fun ds => c :: ds else none
  | c :: rest => if isDigit c then (digits? isDigit rest).map fun ds => c :: ds else none

/-- The value of a digit in a base up to sixteen. -/
def digitValue (c : Char) : Nat :=
  if c.isDigit then c.toNat - '0'.toNat
  else if 'a' ≤ c && c ≤ 'f' then c.toNat - 'a'.toNat + 10
  else c.toNat - 'A'.toNat + 10

/-- The number with the given digits. -/
def ofDigits (base : Nat) (ds : List Char) : Nat :=
  ds.foldl (fun n c => n * base + digitValue c) 0

def isBinary (c : Char) : Bool := c == '0' || c == '1'

def isOctal (c : Char) : Bool := '0' ≤ c && c ≤ '7'

def isHex (c : Char) : Bool :=
  c.isDigit || ('a' ≤ c && c ≤ 'f') || ('A' ≤ c && c ≤ 'F')

/-- Decimal digits without a leading zero. -/
def plainDigits? (cs : List Char) : Option (List Char) :=
  match digits? Char.isDigit cs with
  | some ds => if ds.head? == some '0' && cs.length != 1 then none else some ds
  | none => none

/-- The sign and what follows it. -/
def splitSign : List Char → Bool × List Char
  | '-' :: rest => (true, rest)
  | '+' :: rest => (false, rest)
  | rest => (false, rest)

/-! ## 2. Numbers -/

/-- An integer that fits 128 bits. -/
def wide? (n : Int) : Option Value :=
  if -0x80000000000000000000000000000000 ≤ n && n < 0x100000000000000000000000000000000 then
    some (.int n)
  else none

/-- An integer. -/
def integer? (cs : List Char) : Option Value :=
  match cs with
  | '0' :: 'x' :: rest => (digits? isHex rest).bind fun ds => wide? (ofDigits 16 ds)
  | '0' :: 'o' :: rest => (digits? isOctal rest).bind fun ds => wide? (ofDigits 8 ds)
  | '0' :: 'b' :: rest => (digits? isBinary rest).bind fun ds => wide? (ofDigits 2 ds)
  | cs =>
    let (negative, body) := splitSign cs
    (plainDigits? body).bind fun ds =>
      let n : Int := ofDigits 10 ds
      wide? (if negative then -n else n)

/-- The least number that is nearer to the power of two behind the greatest binary fraction. -/
def fractionLimit : Nat := Nat.pow 2 1024 - Nat.pow 2 970

/-- `n * 10 ^ e` exceeds every binary fraction of 64 bits. -/
def exceeds (n : Nat) (e : Int) : Bool :=
  if n == 0 then false
  else
    let size : Int := (Nat.toDigits 10 n).length + e
    if size < 300 then false
    else if 320 < size then true
    else if 0 ≤ e then decide (fractionLimit ≤ n * Nat.pow 10 e.toNat)
    else decide (fractionLimit * Nat.pow 10 (-e).toNat ≤ n)

/-- The parts of a number with a fraction: whole digits, digits behind the point, exponent. -/
def fractionParts? (cs : List Char) : Option (List Char × List Char × Int) := do
  let mark (c : Char) : Bool := c == 'e' || c == 'E'
  let mantissa := cs.takeWhile fun c => !mark c
  let behind := cs.dropWhile fun c => !mark c
  let whole ← plainDigits? (mantissa.takeWhile (· != '.'))
  let frac ←
    match mantissa.dropWhile (· != '.') with
    | [] => if behind.isEmpty then none else some []
    | _ :: rest => digits? Char.isDigit rest
  let exponent ←
    match behind with
    | [] => some (0 : Int)
    | _ :: rest =>
      let (negative, body) := splitSign rest
      (digits? Char.isDigit body).map fun ds =>
        let n : Int := ofDigits 10 ds
        if negative then -n else n
  some (whole, frac, exponent)

/-- A number with a fraction or an exponent, an infinity, or no number. -/
def fraction? (cs : List Char) : Option Value :=
  let body := (splitSign cs).2
  if body == ['i', 'n', 'f'] || body == ['n', 'a', 'n'] then some .fraction
  else
    match fractionParts? body with
    | none => none
    | some (whole, frac, exponent) =>
      if exceeds (ofDigits 10 (whole ++ frac)) (exponent - frac.length) then none
      else some .fraction

/-! ## 3. Moments -/

/-- A number of exactly `width` digits, and the rest. -/
def fixed? (width : Nat) (cs : List Char) : Option (Nat × List Char) :=
  let ds := cs.take width
  if ds.length == width && ds.all Char.isDigit then some (ofDigits 10 ds, cs.drop width) else none

/-- A day of the calendar, and the rest. -/
def day? (cs : List Char) : Option (List Char) := do
  let (year, cs) ← fixed? 4 cs
  let ('-' :: cs) := cs | none
  let (month, cs) ← fixed? 2 cs
  let ('-' :: cs) := cs | none
  let (day, cs) ← fixed? 2 cs
  if CivilDate.isValid ⟨year, month, day⟩ then some cs else none

/-- A time of day, and the rest. -/
def clock? (cs : List Char) : Option (List Char) := do
  let (hour, cs) ← fixed? 2 cs
  let (':' :: cs) := cs | none
  let (minute, cs) ← fixed? 2 cs
  let (':' :: cs) := cs | none
  let (second, cs) ← fixed? 2 cs
  if !(hour < 24 && minute < 60 && second ≤ 60) then none
  match cs with
  | '.' :: rest =>
    if (rest.takeWhile Char.isDigit).isEmpty then none else some (rest.dropWhile Char.isDigit)
  | cs => some cs

/-- The distance of a zone, and nothing behind it. -/
def isZone : List Char → Bool
  | [] => true
  | ['Z'] | ['z'] => true
  | s :: rest =>
    (s == '+' || s == '-') &&
      match fixed? 2 rest with
      | some (hours, ':' :: rest) =>
        match fixed? 2 rest with
        | some (minutes, []) => hours < 24 && minutes < 60
        | _ => false
      | _ => false

/-- The word is a day, a time of day, or both. -/
def isMoment (cs : List Char) : Bool :=
  match day? cs with
  | some [] => true
  | some (c :: rest) =>
    (c == 'T' || c == 't' || c == ' ') &&
      match clock? rest with
      | some zone => isZone zone
      | none => false
  | none =>
    match clock? cs with
    | some [] => true
    | _ => false

/-! ## 4. Words -/

/-- A character of a word. -/
def isWordChar (c : Char) : Bool :=
  c.isAlphanum || c == '+' || c == '-' || c == '_' || c == '.' || c == ':'

/-- **The value that a word stands for.** -/
def ofWord? (cs : List Char) : Option Value :=
  if cs == "true".toList then some (.bool true)
  else if cs == "false".toList then some (.bool false)
  else if isMoment cs then some .moment
  else
    match integer? cs with
    | some v => some v
    | none => fraction? cs

/-- The word at the front, and the rest. A time of day may stand behind a day and one blank. -/
def takeWord (cs : List Char) : List Char × List Char :=
  let first := cs.takeWhile isWordChar
  let rest := cs.dropWhile isWordChar
  match rest with
  | ' ' :: d :: more =>
    if d.isDigit && day? first == some [] then
      (first ++ ' ' :: (d :: more).takeWhile isWordChar, (d :: more).dropWhile isWordChar)
    else (first, rest)
  | _ => (first, rest)

/-- The value of the word at the front, and the rest. -/
def read? (cs : List Char) : Option (Value × List Char) :=
  let (word, rest) := takeWord cs
  (ofWord? word).map fun v => (v, rest)

end Converge.Toml.Scalar
