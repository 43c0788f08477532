import Converge.Text.Blank

/-!
# Moments in universal time

A moment is a number of seconds since the beginning of 1970 and a part of a second. The part may
reach a second or more: that is how a leap second, written as second 60, is held.

* `text` writes the moment with as few groups of three decimals as it needs;
* `parse?` reads it back and is more lenient: a blank may stand for the `T` and between the parts,
  fields may be short, the zone may be an offset or the word `UTC`.
* `daysOfCivil` and `civilOfDays` count days in the calendar whose leap years are the multiples of
  4 but not of 100, or of 400.
-/

namespace Converge

/-! ## 1. The calendar -/

/-- A day of the calendar. -/
structure CivilDate where
  year : Int
  month : Nat
  day : Nat
deriving DecidableEq, Repr

namespace CivilDate

def isLeap (year : Int) : Bool := year % 4 == 0 && (year % 100 != 0 || year % 400 == 0)

/-- The length of a month. -/
def monthLength (year : Int) (month : Nat) : Nat :=
  if month == 2 then (if isLeap year then 29 else 28)
  else if month == 4 || month == 6 || month == 9 || month == 11 then 30
  else 31

def isValid (d : CivilDate) : Bool :=
  1 ≤ d.month && d.month ≤ 12 && 1 ≤ d.day && d.day ≤ monthLength d.year d.month

/-- The days from the first of January 1970 to the given day. Years are counted from March, in
    eras of 400 years. -/
def toDays (d : CivilDate) : Int :=
  let y : Int := if d.month ≤ 2 then d.year - 1 else d.year
  let era : Int := y.fdiv 400
  let yearOfEra : Int := y - era * 400
  let monthFromMarch : Int := if 2 < d.month then (d.month : Int) - 3 else (d.month : Int) + 9
  let dayOfYear : Int := (153 * monthFromMarch + 2) / 5 + d.day - 1
  let dayOfEra : Int := yearOfEra * 365 + yearOfEra / 4 - yearOfEra / 100 + dayOfYear
  era * 146097 + dayOfEra - 719468

/-- The day that lies the given number of days after the first of January 1970. -/
def ofDays (days : Int) : CivilDate :=
  let z := days + 719468
  let era := z.fdiv 146097
  let dayOfEra := z - era * 146097
  let yearOfEra :=
    (dayOfEra - dayOfEra / 1460 + dayOfEra / 36524 - dayOfEra / 146096) / 365
  let dayOfYear := dayOfEra - (365 * yearOfEra + yearOfEra / 4 - yearOfEra / 100)
  let monthFromMarch := (5 * dayOfYear + 2) / 153
  let day := dayOfYear - (153 * monthFromMarch + 2) / 5 + 1
  let month := if monthFromMarch < 10 then monthFromMarch + 3 else monthFromMarch - 9
  let year := yearOfEra + era * 400 + (if month ≤ 2 then 1 else 0)
  ⟨year, month.toNat, day.toNat⟩

end CivilDate

/-! ## 2. Moments -/

/-- A moment. -/
structure Timestamp where
  /-- Whole seconds since the beginning of 1970. -/
  seconds : Int
  /-- The nanoseconds beyond; a second or more inside a leap second. -/
  nanos : Nat
deriving DecidableEq, Repr, Inhabited

namespace Timestamp

def ofSeconds (n : Int) : Timestamp := ⟨n, 0⟩

/-- The digits of a number, filled up with zeros in front. -/
def padded (width n : Nat) : List Char :=
  let digits := Nat.toDigits 10 n
  List.replicate (width - digits.length) '0' ++ digits

/-- Four digits, or a sign and at least four if four do not suffice. -/
def yearText (year : Int) : List Char :=
  if 0 ≤ year ∧ year ≤ 9999 then padded 4 year.toNat
  else (if year < 0 then '-' else '+') :: padded 4 year.natAbs

/-- Groups of three decimals, as few as the part of a second needs. -/
def fractionText (nanos : Nat) : List Char :=
  if nanos == 0 then []
  else if nanos % 1000000 == 0 then '.' :: padded 3 (nanos / 1000000)
  else if nanos % 1000 == 0 then '.' :: padded 6 (nanos / 1000)
  else '.' :: padded 9 nanos

/-- The written form of a moment. -/
def text (t : Timestamp) : String :=
  let date := CivilDate.ofDays (t.seconds.fdiv 86400)
  let inDay := (t.seconds.fmod 86400).toNat
  let second := inDay % 60 + t.nanos / 1000000000
  String.ofList (yearText date.year ++ ['-'] ++ padded 2 date.month ++ ['-'] ++ padded 2 date.day ++
    ['T'] ++ padded 2 (inDay / 3600) ++ [':'] ++ padded 2 (inDay / 60 % 60) ++ [':'] ++
    padded 2 second ++ fractionText (t.nanos % 1000000000) ++ ['Z'])

/-! ## 3. Reading -/

def digitValue (c : Char) : Nat := c.toNat - '0'.toNat

def number (cs : List Char) : Nat := cs.foldl (fun n c => n * 10 + digitValue c) 0

/-- A field of at most `width` digits behind blanks. -/
def field? (width : Nat) (cs : List Char) : Option (Nat × List Char) :=
  let cs := Text.trimStartChars cs
  let digits := (cs.take width).takeWhile Char.isDigit
  if digits.isEmpty then none else some (number digits, cs.drop digits.length)

/-- A year: four digits, or a sign and any number of them. -/
def year? (cs : List Char) : Option (Int × List Char) :=
  let signed (cs : List Char) : Option (Nat × List Char) :=
    let digits := cs.takeWhile Char.isDigit
    if digits.isEmpty then none else some (number digits, cs.drop digits.length)
  match Text.trimStartChars cs with
  | '-' :: rest => (signed rest).map fun (n, r) => (-(n : Int), r)
  | '+' :: rest => (signed rest).map fun (n, r) => ((n : Int), r)
  | rest => (field? 4 rest).map fun (n, r) => ((n : Int), r)

/-- A fixed sign behind blanks. -/
def sign? (c : Char) (cs : List Char) : Option (List Char) :=
  match Text.trimStartChars cs with
  | d :: rest => if d == c then some rest else none
  | [] => none

/-- The decimals of a second: nine count, more are passed over. -/
def fraction? : List Char → Option (Nat × List Char)
  | '.' :: rest =>
    let digits := rest.takeWhile Char.isDigit
    let used := digits.take 9
    if digits.isEmpty then none
    else some (number used * Nat.pow 10 (9 - used.length), rest.drop digits.length)
  | rest => some (0, rest)

/-- The distance of the zone from universal time in seconds. -/
def zone? (cs : List Char) : Option (Int × List Char) :=
  let offset (sign : Int) (cs : List Char) : Option (Int × List Char) :=
    match cs with
    | a :: b :: rest =>
      if !(a.isDigit && b.isDigit) then none else
      let hours := digitValue a * 10 + digitValue b
      match rest.dropWhile fun c => c == ':' || Text.blank c with
      | m :: n :: rest =>
        if m.isDigit && n.isDigit && digitValue m < 6 then
          let seconds : Nat := hours * 3600 + (digitValue m * 10 + digitValue n) * 60
          if seconds < 86400 then some (sign * seconds, rest) else none
        else none
      | _ => none
    | _ => none
  match cs with
  | 'Z' :: rest | 'z' :: rest => some (0, rest)
  | '+' :: rest => offset 1 rest
  | '-' :: rest => offset (-1) rest
  | '\u2212' :: rest => offset (-1) rest
  | a :: b :: c :: rest =>
    if String.ofList [a.toLower, b.toLower, c.toLower] == "utc" then some (0, rest) else none
  | _ => none

/-- The years that a moment may lie in. -/
def yearInRange (y : Int) : Bool := -262143 ≤ y && y ≤ 262142

/-- Reads a moment. -/
def parse? (s : String) : Option Timestamp := do
  let (year, cs) ← year? s.toList
  let cs ← sign? '-' cs
  let (month, cs) ← field? 2 cs
  let cs ← sign? '-' cs
  let (day, cs) ← field? 2 cs
  let cs ← match cs with
    | 't' :: cs | 'T' :: cs | ' ' :: cs => some cs
    | _ => none
  let (hour, cs) ← field? 2 cs
  let cs ← sign? ':' cs
  let (minute, cs) ← field? 2 cs
  let cs ← sign? ':' cs
  let (second, cs) ← field? 2 cs
  let (nanos, cs) ← fraction? cs
  let (offset, cs) ← zone? (Text.trimStartChars cs)
  let date : CivilDate := ⟨year, month, day⟩
  if !(Text.trimStartChars cs).isEmpty then none
  if !(yearInRange year && date.isValid && hour < 24 && minute < 60 && second ≤ 60) then none
  let leap := second == 60
  let clock : Int := hour * 3600 + minute * 60 + (if leap then 59 else second)
  let seconds := date.toDays * 86400 + clock - offset
  if !yearInRange (CivilDate.ofDays (seconds.fdiv 86400)).year then none
  some ⟨seconds, nanos + if leap then 1000000000 else 0⟩

end Timestamp

end Converge
