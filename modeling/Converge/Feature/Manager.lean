import Converge.Feature.Row
import Converge.Files.Path

/-!
# The policy for features

* The first plan for a feature, and every change of its restart setting, write a drop-in file for
  each unit and then make the service manager read its files again.
* A feature that is to run has its units unmasked, enabled and started; one that is not to run, or
  is gone, has them stopped, disabled and masked.
* The status row says `failed` unless every action succeeded, and else whether the feature runs.
-/

namespace Converge

/-- Turns rows of features into actions. -/
structure FeatureManager where
  /-- The directory of the unit files. -/
  unitDir : String := "/etc/systemd/system"
  /-- The number of chips of the device. -/
  chips : Nat := 1
deriving DecidableEq, Repr

namespace FeatureManager

/-! ## 1. Pieces of a plan -/

/-- The path of the drop-in file of a unit. -/
def dropInPath (m : FeatureManager) (unit : String) : String :=
  Path.join (Path.join m.unitDir (unit ++ ".d")) "auto_restart.conf"

/-- The verbs that bring a unit up. -/
def bringUp : List UnitVerb := [.unmask, .enable, .start]

/-- The verbs that take a unit down. -/
def takeDown : List UnitVerb := [.stop, .disable, .mask]

/-- All verbs on the first unit, then all on the next. -/
def onUnits (verbs : List UnitVerb) (units : List String) : List Action :=
  units.flatMap fun unit => verbs.map fun verb => .service unit verb

/-- The drop-in files of the units, and the reload that makes them count. -/
def dropIns (m : FeatureManager) (restart : RestartPolicy) (units : List String) : List Action :=
  units.map (fun unit => .writeFile (m.dropInPath unit) restart.dropIn) ++ [.managerReload]

/-- The old row left drop-in files with the given setting behind. -/
def leftBehind (old : Row) (restart : RestartPolicy) : Bool :=
  !old.isEmpty &&
    match RestartPolicy.ofRow old with
    | .ok r => r == restart
    | .error _ => false

/-! ## 2. Plans -/

/-- The plan for a feature that is gone. -/
def planRemoved (m : FeatureManager) (name : String) (old : Row) : List Action :=
  if old.isEmpty then [] else onUnits takeDown ((FeatureScope.ofRow old).units name m.chips)

/-- The plan for a feature. -/
def planFeature (m : FeatureManager) (f : Feature) (old : Row) : List Action :=
  let units := f.units m.chips
  (if leftBehind old f.restart then [] else m.dropIns f.restart units) ++
    onUnits (if f.state.isEnabled then bringUp else takeDown) units

/-- The plan for a row. -/
def plan (m : FeatureManager) (name : String) (old new : Row) :
    Except PolicyFault (List Action) :=
  if new.isEmpty then .ok (m.planRemoved name old)
  else
    match Feature.ofRow name new with
    | .error e => .error e
    | .ok f => .ok (m.planFeature f old)

/-! ## 3. Status rows -/

/-- The status row of a feature. -/
def status (name : String) (new : Row) (applied : Bool) : Option Row :=
  if !applied then some (.ofList [("state", "failed")])
  else
    match Feature.ofRow name new with
    | .error _ => none
    | .ok f => some (.ofList [("state", f.state.statusWord)])

/-- The policy. -/
def policy (m : FeatureManager) : Policy where
  plan id old new := m.plan id.key old new
  status key new applied := .ok (status key new applied)

end FeatureManager

end Converge
