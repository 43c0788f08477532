import Converge.Invocation
import Converge.Testkit.Scenario

/-!
# Rehearsals

A rehearsal shows what a daemon would do: it meets events one after another on a host on which
every command succeeds. Each line of input is an event, and each command and each audit entry is a
line of output.
-/

namespace Converge

open Testkit (Bench)

/-- A daemon in a rehearsal. -/
structure Rehearsal where
  daemon : Daemon Bench
  scene : Scene Bench

namespace Rehearsal

/-- The beginning: nothing was applied yet. -/
def start (i : Invocation) (settings : Option String) : Except Error Rehearsal :=
  (i.prepare settings Bench.host (some Bench.sink)).map fun d => ⟨d, .start d {}⟩

/-- The line for something that can be seen. -/
def line? : Sight → Option String
  | .deed (.call c) _ _ => some ("run " ++ c.display)
  | .deed (.audit e) _ _ =>
    some (e.outcome.level.name ++ " " ++ (Json.object e.members).compact)
  | _ => none

/-- **Meets the event in a line of input**, and answers with the lines of output. -/
def meet (r : Rehearsal) (input : String) : List String × Rehearsal :=
  match Json.Reader.parse input with
  | none => (["not an event"], r)
  | some j =>
    let (_, scene) := r.scene.meet r.daemon (Testkit.Scenario.event j)
    (scene.seen.filterMap line?, { r with scene := { scene with seen := [] } })

end Rehearsal

end Converge
