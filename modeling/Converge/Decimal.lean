/-!
# The shortest decimal of a binary fraction

A finite value of 64 bits is `m · 2^q`. Of the decimals that read back as this value, the written
one has the fewest digits, and among those it lies nearest.

* `Binary64` splits the bits; `Interval` is the range of reals that round to the value, with its
  ends exactly if `m` is even;
* `shortest` tests, for one digit, two digits and so on, the two neighbours of the value on the
  decimal grid, in exact arithmetic.
-/

namespace Converge.Decimal

/-! ## 1. The value behind the bits -/

/-- The parts of a finite value: sign, and `m · 2^q`. -/
structure Binary64 where
  negative : Bool
  m : Nat
  q : Int
  /-- The next smaller value is only half as far away as the next larger one. -/
  narrowBelow : Bool

/-- The parts of 64 bits (for an infinity or a NaN those of the largest values). -/
def Binary64.ofBits (bits : UInt64) : Binary64 :=
  let n := bits.toNat
  let fraction : Nat := n % 0x10000000000000
  let exponent : Nat := n / 0x10000000000000 % 0x800
  let negative := n / 0x8000000000000000 == 1
  if exponent == 0 then ⟨negative, fraction, -1074, false⟩
  else
    ⟨negative, fraction + 0x10000000000000, (exponent : Int) - 1075,
      fraction == 0 && exponent != 1⟩

/-- A quotient of naturals. -/
structure Ratio where
  num : Nat
  den : Nat

def Ratio.le (a b : Ratio) : Bool := a.num * b.den ≤ b.num * a.den

def Ratio.lt (a b : Ratio) : Bool := a.num * b.den < b.num * a.den

/-- `n · 2^e`. -/
def Ratio.ofBinary (n : Nat) (e : Int) : Ratio :=
  if 0 ≤ e then ⟨n * Nat.pow 2 e.toNat, 1⟩ else ⟨n, Nat.pow 2 (-e).toNat⟩

/-- `n · 10^e`. -/
def Ratio.ofDecimal (n : Nat) (e : Int) : Ratio :=
  if 0 ≤ e then ⟨n * Nat.pow 10 e.toNat, 1⟩ else ⟨n, Nat.pow 10 (-e).toNat⟩

/-- The reals that round to a value. -/
structure Interval where
  lo : Ratio
  hi : Ratio
  closed : Bool

def Interval.contains (i : Interval) (r : Ratio) : Bool :=
  if i.closed then i.lo.le r && r.le i.hi else i.lo.lt r && r.lt i.hi

def Binary64.interval (b : Binary64) : Interval where
  lo := Ratio.ofBinary (4 * b.m - (if b.narrowBelow then 1 else 2)) (b.q - 2)
  hi := Ratio.ofBinary (4 * b.m + 2) (b.q - 2)
  closed := b.m % 2 == 0

/-! ## 2. Digits -/

/-- A positive decimal `0.d₁d₂… · 10^point`. -/
structure Digits where
  digits : List Char
  point : Int

/-- The least `p` from the list with `r < 10^p`. -/
def pointOf (r : Ratio) : Int :=
  let candidates := (List.range 640).map fun (i : Nat) => (i : Int) - 325
  (candidates.find? fun p => r.lt (Ratio.ofDecimal 1 p)).getD 310

/-- The neighbour of the value on the grid of `count` digits that reads back as the value. -/
def onGrid (r : Ratio) (i : Interval) (point : Int) (count : Nat) : Option Nat :=
  let g := point - count
  let scaled : Ratio := if 0 ≤ g then ⟨r.num, r.den * Nat.pow 10 g.toNat⟩
    else ⟨r.num * Nat.pow 10 (-g).toNat, r.den⟩
  let below := scaled.num / scaled.den
  let rest := scaled.num % scaled.den
  let lowFits := 0 < below && i.contains (Ratio.ofDecimal below g)
  let highFits := i.contains (Ratio.ofDecimal (below + 1) g)
  if lowFits && (!highFits || 2 * rest < scaled.den || (2 * rest == scaled.den && below % 2 == 0))
  then some below
  else if highFits then some (below + 1)
  else none

/-- The shortest decimal that reads back as a positive value. -/
def shortest (b : Binary64) : Digits :=
  let r := Ratio.ofBinary b.m b.q
  let i := b.interval
  let point := pointOf r
  let hit := (List.range 17).findSome? fun n => onGrid r i point (n + 1) |>.map fun d => (n + 1, d)
  match hit with
  | none => ⟨['0'], 1⟩
  | some (count, d) =>
    let ds := Nat.toDigits 10 d
    let point := point + (ds.length : Int) - count
    let kept := (ds.reverse.dropWhile (· == '0')).reverse
    ⟨kept, point⟩

/-! ## 3. Text -/

/-- Positional from `0.00001` up to sixteen digits before the point, with an exponent beyond; a
    whole number keeps one zero behind the point. -/
def Digits.text (d : Digits) : String :=
  let n : Int := d.digits.length
  let zeros (k : Int) := List.replicate k.toNat '0'
  if n ≤ d.point && d.point ≤ 16 then
    String.ofList (d.digits ++ zeros (d.point - n)) ++ ".0"
  else if 0 < d.point && d.point ≤ 16 then
    String.ofList (d.digits.take d.point.toNat) ++ "." ++
      String.ofList (d.digits.drop d.point.toNat)
  else if -5 < d.point && d.point ≤ 0 then
    "0." ++ String.ofList (zeros (-d.point) ++ d.digits)
  else
    let exponent := "e" ++ toString (d.point - 1)
    match d.digits with
    | [] => "0.0"
    | [c] => String.ofList [c] ++ exponent
    | c :: cs => String.ofList [c] ++ "." ++ String.ofList cs ++ exponent

/-- The text of a finite value of 64 bits. -/
def text (bits : UInt64) : String :=
  let b := Binary64.ofBits bits
  let body := if b.m == 0 then "0.0" else (shortest b).text
  if b.negative then "-" ++ body else body

end Converge.Decimal
