import Converge.Duration

/-!
# Growing waits

The waits between attempts begin at `initial` and double until they reach `max`. A `max` below
`initial` counts as `initial`.

`next?` fails where doubling leaves the width of the clock, even if the result would have been
cut to `max`.
-/

namespace Converge

/-- The schedule of waits and the next one. -/
structure Backoff where
  initial : Duration
  max : Duration
  current : Duration
deriving DecidableEq, Repr

namespace Backoff

/-- A schedule at its beginning. -/
def start (initial max : Duration) : Backoff := ⟨initial, Duration.max max initial, initial⟩

/-- The next wait, and the schedule after it. -/
def next? (b : Backoff) : Option (Duration × Backoff) :=
  b.current.double?.map fun twice => (b.current, { b with current := Duration.min twice b.max })

/-- The schedule at its beginning again. -/
def reset (b : Backoff) : Backoff := { b with current := b.initial }

end Backoff

end Converge
