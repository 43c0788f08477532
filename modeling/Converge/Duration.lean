/-!
# Spans of time

A span is a number of nanoseconds. `representable` says that it fits the clock's width, 64 bits of
whole seconds; `double?` fails where the doubled span would not fit. A computation that leaves the
width breaks down whoever makes it, with the message of its `TimeOverflow`.

`text` is the shortest decimal in the largest unit of which the span holds one: `1.5s`, `50ms`,
`1.001µs`, `0ns`.
-/

namespace Converge

/-- A span of time. -/
structure Duration where
  /-- The whole span in nanoseconds. -/
  nanos : Nat
deriving DecidableEq, Repr, Inhabited

namespace Duration

/-! ## 1. Units -/

def zero : Duration := ⟨0⟩

def ofNanos (n : Nat) : Duration := ⟨n⟩

def ofMillis (n : Nat) : Duration := ⟨n * 1000000⟩

def ofSecs (n : Nat) : Duration := ⟨n * 1000000000⟩

/-- The whole seconds of a span. -/
def wholeSecs (d : Duration) : Nat := d.nanos / 1000000000

/-- What a span holds beyond its whole seconds, in nanoseconds. -/
def subsecNanos (d : Duration) : Nat := d.nanos % 1000000000

/-- The whole milliseconds of a span. -/
def wholeMillis (d : Duration) : Nat := d.nanos / 1000000

instance : LE Duration := ⟨fun a b => a.nanos ≤ b.nanos⟩
instance : LT Duration := ⟨fun a b => a.nanos < b.nanos⟩
instance (a b : Duration) : Decidable (a ≤ b) := inferInstanceAs (Decidable (a.nanos ≤ b.nanos))
instance (a b : Duration) : Decidable (a < b) := inferInstanceAs (Decidable (a.nanos < b.nanos))
instance : Add Duration := ⟨fun a b => ⟨a.nanos + b.nanos⟩⟩

protected def min (a b : Duration) : Duration := if a ≤ b then a else b

protected def max (a b : Duration) : Duration := if a ≤ b then b else a

/-! ## 2. The width of the clock -/

/-- The first span, in nanoseconds, whose seconds do not fit 64 bits. -/
def limit : Nat := 0x10000000000000000 * 1000000000

/-- The span fits the clock. -/
def Representable (d : Duration) : Prop := d.nanos < limit

instance (d : Duration) : Decidable d.Representable := inferInstanceAs (Decidable (_ < _))

/-- Twice the span, unless it would not fit the clock. -/
def double? (d : Duration) : Option Duration :=
  if 2 * d.nanos < limit then some ⟨2 * d.nanos⟩ else none

/-! ## 3. Text -/

/-- A decimal with a fraction of `width` digits, of which trailing zeros are left out. -/
def decimal (whole frac width : Nat) : String :=
  let digits := (Nat.toDigits 10 frac)
  let padded := List.replicate (width - digits.length) '0' ++ digits
  let kept := (padded.reverse.dropWhile (· == '0')).reverse
  if kept.isEmpty then toString whole else toString whole ++ "." ++ String.ofList kept

/-- The span in the largest unit of which it holds one. -/
def text (d : Duration) : String :=
  let n := d.nanos
  if 1000000000 ≤ n then decimal (n / 1000000000) (n % 1000000000) 9 ++ "s"
  else if 1000000 ≤ n then decimal (n / 1000000) (n % 1000000) 6 ++ "ms"
  else if 1000 ≤ n then decimal (n / 1000) (n % 1000) 3 ++ "µs"
  else toString n ++ "ns"

end Duration

/-! ## 4. Breaking down -/

/-- The computations that can leave the width of the clock. -/
inductive TimeOverflow where
  /-- Doubling a span. -/
  | doubling
  /-- Adding a span to a moment. -/
  | adding
deriving DecidableEq, Repr

/-- What is said when the computation breaks down. -/
def TimeOverflow.message : TimeOverflow → String
  | .doubling => "overflow when multiplying duration by scalar"
  | .adding => "overflow when adding duration to instant"

end Converge
