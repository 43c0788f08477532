import Converge.Json

/-!
# Reading JSON

A reader for the grammar of JSON, without additions: no comments, no trailing commas, no control
characters inside strings, no lone surrogate escapes.

* `value` reads one value and answers with the text behind it. A value inside another one lies one
  level deeper, and no value may lie at level zero; a text is read with 128 levels.
* `skip` passes over a value that nobody will look at: it checks the grammar only, so a number of
  any size and an unpaired surrogate are let through.
* A number that has a fraction or an exponent, or that does not fit 64 bits, is read as a binary
  fraction: of its digits those that fit 64 bits count, scaled by a power of ten.
-/

namespace Converge.Json.Reader

/-- What is left to read. -/
abbrev Rest := List Char

/-! ## 1. Tokens -/

/-- The blanks of the grammar. -/
def isGap (c : Char) : Bool := c == ' ' || c == '\n' || c == '\t' || c == '\r'

def skipGap (cs : Rest) : Rest := cs.dropWhile isGap

/-- The text without a fixed word in front. -/
def word? (w : List Char) (cs : Rest) : Option Rest :=
  if w.isPrefixOf cs then some (cs.drop w.length) else none

def hexValue? (c : Char) : Option Nat :=
  if '0' ≤ c ∧ c ≤ '9' then some (c.toNat - '0'.toNat)
  else if 'a' ≤ c ∧ c ≤ 'f' then some (c.toNat - 'a'.toNat + 10)
  else if 'A' ≤ c ∧ c ≤ 'F' then some (c.toNat - 'A'.toNat + 10)
  else none

/-- Four hexadecimal digits. -/
def hex4? : Rest → Option (Nat × Rest)
  | a :: b :: c :: d :: rest => do
    let a ← hexValue? a
    let b ← hexValue? b
    let c ← hexValue? c
    let d ← hexValue? d
    some (((a * 16 + b) * 16 + c) * 16 + d, rest)
  | _ => none

/-- The character of an escape of two signs. -/
def shortEscape? : Char → Option Char
  | '"' => some '"'
  | '\\' => some '\\'
  | '/' => some '/'
  | 'b' => some '\x08'
  | 'f' => some '\x0c'
  | 'n' => some '\n'
  | 'r' => some '\r'
  | 't' => some '\t'
  | _ => none

/-- What stands behind the `u` of an escape: one code point, or a pair of surrogates. -/
def unicodeEscape? (cs : Rest) : Option (Char × Rest) := do
  let (n, rest) ← hex4? cs
  if 0xDC00 ≤ n ∧ n ≤ 0xDFFF then none
  else if 0xD800 ≤ n ∧ n ≤ 0xDBFF then
    match rest with
    | '\\' :: 'u' :: rest =>
      let (m, rest) ← hex4? rest
      if 0xDC00 ≤ m ∧ m ≤ 0xDFFF then
        some (Char.ofNat (0x10000 + (n - 0xD800) * 0x400 + (m - 0xDC00)), rest)
      else none
    | _ => none
  else some (Char.ofNat n, rest)

/-- The inside of a string up to its closing quote; `done` holds what was read, newest first. -/
def stringBody (fuel : Nat) (done : List Char) (cs : Rest) : Option (String × Rest) :=
  match fuel, cs with
  | 0, _ => none
  | _, [] => none
  | _ + 1, '"' :: rest => some (String.ofList done.reverse, rest)
  | fuel + 1, '\\' :: 'u' :: rest =>
    match unicodeEscape? rest with
    | some (c, rest) => stringBody fuel (c :: done) rest
    | none => none
  | fuel + 1, '\\' :: e :: rest =>
    match shortEscape? e with
    | some c => stringBody fuel (c :: done) rest
    | none => none
  | fuel + 1, c :: rest =>
    if c.toNat < 0x20 || c == '\\' then none else stringBody fuel (c :: done) rest

/-- A string whose opening quote has been read. -/
def string? (cs : Rest) : Option (String × Rest) := stringBody (cs.length + 1) [] cs

/-- The inside of a string that nobody will look at. -/
def skipString (fuel : Nat) (cs : Rest) : Option Rest :=
  match fuel, cs with
  | 0, _ => none
  | _, [] => none
  | _ + 1, '"' :: rest => some rest
  | fuel + 1, '\\' :: 'u' :: rest =>
    match hex4? rest with
    | some (_, rest) => skipString fuel rest
    | none => none
  | fuel + 1, '\\' :: e :: rest =>
    match shortEscape? e with
    | some _ => skipString fuel rest
    | none => none
  | fuel + 1, c :: rest => if c.toNat < 0x20 || c == '\\' then none else skipString fuel rest

/-! ## 2. Numbers -/

/-- The parts of a number as it is written. -/
structure Numeral where
  negative : Bool
  whole : List Char
  /-- The digits behind the point; nothing without a point. -/
  fraction : Option (List Char)
  /-- The sign and the digits of the exponent; nothing without an exponent. -/
  exponent : Option (Bool × List Char)

/-- A numeral whose sign has been read. -/
def numeral? (negative : Bool) (cs : Rest) : Option (Numeral × Rest) := do
  let whole := cs.takeWhile Char.isDigit
  let rest := cs.dropWhile Char.isDigit
  if whole.isEmpty || (whole.head? == some '0' && 1 < whole.length) then none
  let (fraction, rest) ←
    match rest with
    | '.' :: rest =>
      let digits := rest.takeWhile Char.isDigit
      if digits.isEmpty then none else some (some digits, rest.dropWhile Char.isDigit)
    | rest => some (none, rest)
  let (exponent, rest) ←
    match rest with
    | c :: rest =>
      if c == 'e' || c == 'E' then
        let (sign, rest) :=
          match rest with
          | '+' :: rest => (false, rest)
          | '-' :: rest => (true, rest)
          | rest => (false, rest)
        let digits := rest.takeWhile Char.isDigit
        if digits.isEmpty then none
        else some (some (sign, digits), rest.dropWhile Char.isDigit)
      else some (none, c :: rest)
    | [] => some (none, [])
  some (⟨negative, whole, fraction, exponent⟩, rest)

def digitValue (c : Char) : Nat := c.toNat - '0'.toNat

/-- The first number that does not fit 64 bits. -/
def wordLimit : Nat := 0x10000000000000000

/-- Appends digits while the result fits 64 bits: the number and the digits that are left. -/
def gather (n : Nat) : List Char → Nat × List Char
  | [] => (n, [])
  | c :: cs =>
    if n * 10 + digitValue c < wordLimit then gather (n * 10 + digitValue c) cs else (n, c :: cs)

/-- `f · 10^e` by one multiplication or by divisions, in steps of at most `10^308`; nothing if
    the result is too large. -/
def scale (fuel : Nat) (f : Float) (e : Int) : Option Float :=
  match fuel with
  | 0 => some f
  | fuel + 1 =>
    if e.natAbs ≤ 308 then
      if 0 ≤ e then
        let r := f * Float.ofScientific 1 false e.toNat
        if r.isInf then none else some r
      else some (f / Float.ofScientific 1 false e.natAbs)
    else if f == 0 then some f
    else if 0 ≤ e then none
    else scale fuel (f / Float.ofScientific 1 false 308) (e + 308)

/-- A binary fraction of the given sign and size. -/
def ofFloat (negative : Bool) (f : Float) : Json := .float (if negative then -f else f).toBits

/-- The value of a numeral. -/
def Numeral.value? (n : Numeral) : Option Json := do
  let (whole, excess) := gather 0 n.whole
  if n.fraction.isNone && n.exponent.isNone && excess.isEmpty then
    if !n.negative then return .int whole
    if whole == 0 || 0x8000000000000000 < whole then return ofFloat true whole.toUInt64.toFloat
    return .int (-(whole : Int))
  let (significand, left) := gather whole (n.fraction.getD [])
  let used := (n.fraction.getD []).length - left.length
  let shift : Int := (excess.length : Int) - used
  let (sign, digits) := n.exponent.getD (false, [])
  let e := (digits.foldl (fun acc c => acc * 10 + digitValue c) 0)
  if 0x80000000 ≤ e then
    if significand == 0 || sign then return ofFloat n.negative 0 else none
  let exponent := if sign then shift - e else shift + e
  let f ← scale (e + excess.length + n.whole.length + left.length + used + 2)
    significand.toUInt64.toFloat exponent
  return ofFloat n.negative f

/-! ## 3. Values -/

mutual

/-- One value that lies `depth` levels above the deepest level. -/
def value (fuel depth : Nat) (cs : Rest) : Option (Json × Rest) :=
  match fuel with
  | 0 => none
  | fuel + 1 =>
    match skipGap cs with
    | 'n' :: rest => (word? ['u', 'l', 'l'] rest).map fun r => (.null, r)
    | 't' :: rest => (word? ['r', 'u', 'e'] rest).map fun r => (.bool true, r)
    | 'f' :: rest => (word? ['a', 'l', 's', 'e'] rest).map fun r => (.bool false, r)
    | '"' :: rest => (string? rest).map fun (s, r) => (.str s, r)
    | '[' :: rest => if depth ≤ 1 then none else itemsFrom fuel (depth - 1) rest
    | '\x7b' :: rest => if depth ≤ 1 then none else membersFrom fuel (depth - 1) rest
    | '-' :: rest => do
      let (n, r) ← numeral? true rest
      let v ← n.value?
      some (v, r)
    | rest => do
      let (n, r) ← numeral? false rest
      let v ← n.value?
      some (v, r)

/-- The items of an array whose bracket has been read. -/
def itemsFrom (fuel depth : Nat) (cs : Rest) : Option (Json × Rest) :=
  match fuel with
  | 0 => none
  | fuel + 1 =>
    match skipGap cs with
    | ']' :: rest => some (.arr [], rest)
    | rest => moreItems fuel depth [] rest

/-- An item and what follows it; `done` holds the items before it, newest first. -/
def moreItems (fuel depth : Nat) (done : List Json) (cs : Rest) : Option (Json × Rest) :=
  match fuel with
  | 0 => none
  | fuel + 1 =>
    match value fuel depth cs with
    | none => none
    | some (v, rest) =>
      match skipGap rest with
      | ',' :: rest => moreItems fuel depth (v :: done) rest
      | ']' :: rest => some (.arr (v :: done).reverse, rest)
      | _ => none

/-- The members of an object whose brace has been read. -/
def membersFrom (fuel depth : Nat) (cs : Rest) : Option (Json × Rest) :=
  match fuel with
  | 0 => none
  | fuel + 1 =>
    match skipGap cs with
    | '\x7d' :: rest => some (.obj [], rest)
    | rest => moreMembers fuel depth [] rest

/-- A member and what follows it; `done` holds the members before it, newest first. -/
def moreMembers (fuel depth : Nat) (done : List (String × Json)) (cs : Rest) :
    Option (Json × Rest) :=
  match fuel with
  | 0 => none
  | fuel + 1 =>
    match skipGap cs with
    | '"' :: rest =>
      match string? rest with
      | none => none
      | some (k, rest) =>
        match skipGap rest with
        | ':' :: rest =>
          match value fuel depth rest with
          | none => none
          | some (v, rest) =>
            match skipGap rest with
            | ',' :: rest => moreMembers fuel depth ((k, v) :: done) rest
            | '\x7d' :: rest => some (Json.object ((k, v) :: done).reverse, rest)
            | _ => none
        | _ => none
    | _ => none

end

mutual

/-- Passes over one value. -/
def skip (fuel : Nat) (cs : Rest) : Option Rest :=
  match fuel with
  | 0 => none
  | fuel + 1 =>
    match skipGap cs with
    | 'n' :: rest => word? ['u', 'l', 'l'] rest
    | 't' :: rest => word? ['r', 'u', 'e'] rest
    | 'f' :: rest => word? ['a', 'l', 's', 'e'] rest
    | '"' :: rest => skipString (rest.length + 1) rest
    | '[' :: rest =>
      match skipGap rest with
      | ']' :: rest => some rest
      | rest => skipItems fuel rest
    | '\x7b' :: rest =>
      match skipGap rest with
      | '\x7d' :: rest => some rest
      | rest => skipMembers fuel rest
    | '-' :: rest => (numeral? true rest).map (·.2)
    | rest => (numeral? false rest).map (·.2)

/-- Passes over the items of an array. -/
def skipItems (fuel : Nat) (cs : Rest) : Option Rest :=
  match fuel with
  | 0 => none
  | fuel + 1 =>
    match skip fuel cs with
    | none => none
    | some rest =>
      match skipGap rest with
      | ',' :: rest => skipItems fuel rest
      | ']' :: rest => some rest
      | _ => none

/-- Passes over the members of an object. -/
def skipMembers (fuel : Nat) (cs : Rest) : Option Rest :=
  match fuel with
  | 0 => none
  | fuel + 1 =>
    match skipGap cs with
    | '"' :: rest =>
      match skipString (rest.length + 1) rest with
      | none => none
      | some rest =>
        match skipGap rest with
        | ':' :: rest =>
          match skip fuel rest with
          | none => none
          | some rest =>
            match skipGap rest with
            | ',' :: rest => skipMembers fuel rest
            | '\x7d' :: rest => some rest
            | _ => none
        | _ => none
    | _ => none

end

/-! ## 4. Whole texts -/

/-- The levels that a text may use. -/
def maxDepth : Nat := 128

/-- Steps enough for any value that the text can hold: each step but one in three reads a sign. -/
def enough (cs : Rest) : Nat := 3 * cs.length + 3

/-- The value of a whole text. -/
def parse (s : String) : Option Json :=
  let cs := s.toList
  match value (enough cs) maxDepth cs with
  | some (v, rest) => if (skipGap rest).isEmpty then some v else none
  | none => none

end Converge.Json.Reader
