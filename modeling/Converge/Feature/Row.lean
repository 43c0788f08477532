import Converge.Policy
import Converge.Text.Search

/-!
# Rows of features

A row says whether a feature is to run (`FeatureState`), whether its units come back by themselves
after a crash (`RestartPolicy`), and which units it has (`FeatureScope`).

* The state must be one of four words.
* The restart setting is looser: **it counts as on if the word `enabled` occurs in it**, else as
  off if the word `disabled` occurs; without the field it is off.
* On a device with one chip a feature has one unit, whatever its scope; with several it may have a
  unit for the device and a unit for each chip.
-/

namespace Converge

/-! ## 1. The state -/

/-- Whether a feature is to run. -/
inductive FeatureState where
  | enabled
  | disabled
  | alwaysEnabled
  | alwaysDisabled
deriving DecidableEq, Repr

namespace FeatureState

def word : FeatureState → String
  | .enabled => "enabled"
  | .disabled => "disabled"
  | .alwaysEnabled => "always_enabled"
  | .alwaysDisabled => "always_disabled"

/-- Reads a word. -/
def ofWord? : String → Option FeatureState
  | "enabled" => some .enabled
  | "disabled" => some .disabled
  | "always_enabled" => some .alwaysEnabled
  | "always_disabled" => some .alwaysDisabled
  | _ => none

theorem ofWord?_word (s : FeatureState) : ofWord? s.word = some s := by cases s <;> rfl

/-- Reads a word or says what is wrong with it. -/
def parse (word : String) : Except PolicyFault FeatureState :=
  match ofWord? word with
  | some s => .ok s
  | none => .error (.refused ("invalid feature state '" ++ word ++ "'"))

/-- The feature is to run. -/
def isEnabled : FeatureState → Bool
  | .enabled | .alwaysEnabled => true
  | .disabled | .alwaysDisabled => false

/-- The word of the status row. -/
def statusWord (s : FeatureState) : String := if s.isEnabled then "enabled" else "disabled"

end FeatureState

/-! ## 2. The restart setting -/

/-- Whether a unit comes back by itself. -/
inductive RestartPolicy where
  | always
  | never
deriving DecidableEq, Repr

namespace RestartPolicy

/-- The setting of a feature that names none. -/
def default : RestartPolicy := .never

/-- Reads a setting. -/
def parse (text : String) : Except PolicyFault RestartPolicy :=
  if Text.occurs "enabled" text then .ok .always
  else if Text.occurs "disabled" text then .ok .never
  else .error (.refused ("invalid auto_restart '" ++ text ++ "'"))

/-- The setting of a row. -/
def ofRow (row : Row) : Except PolicyFault RestartPolicy :=
  match row.get? "auto_restart" with
  | some text => parse text
  | none => .ok default

/-- The value in a unit file. -/
def unitValue : RestartPolicy → String
  | .always => "always"
  | .never => "no"

/-- The text of a drop-in file. -/
def dropIn (r : RestartPolicy) : String := "[Service]\nRestart=" ++ r.unitValue

end RestartPolicy

/-! ## 3. The units -/

/-- Which units a feature has on a device with several chips. -/
structure FeatureScope where
  /-- There is one for the device. -/
  forDevice : Bool := true
  /-- There is one for each chip. -/
  forEachChip : Bool := false
deriving DecidableEq, Repr

namespace FeatureScope

/-- The scope of a row. -/
def ofRow (row : Row) : FeatureScope where
  forDevice := (row.getBool? "has_global_scope").getD true
  forEachChip := (row.getBool? "has_per_asic_scope").getD false

/-- The unit for the device. -/
def deviceUnit (name : String) : String := name ++ ".service"

/-- The unit for one chip. -/
def chipUnit (name : String) (chip : Nat) : String :=
  name ++ "@" ++ toString chip ++ ".service"

/-- The units of a feature on a device with the given number of chips. -/
def units (s : FeatureScope) (name : String) (chips : Nat) : List String :=
  if chips ≤ 1 then [deviceUnit name]
  else
    (if s.forDevice then [deviceUnit name] else []) ++
      (if s.forEachChip then (List.range chips).map (chipUnit name) else [])

end FeatureScope

/-! ## 4. Features -/

/-- A feature as its row describes it. -/
structure Feature where
  name : String
  state : FeatureState
  restart : RestartPolicy
  scope : FeatureScope
deriving DecidableEq, Repr

namespace Feature

/-- Reads a row; the state is looked at before the restart setting. -/
def ofRow (name : String) (row : Row) : Except PolicyFault Feature :=
  match row.get? "state" with
  | none => .error (.refused "missing field 'state'")
  | some word =>
    match FeatureState.parse word with
    | .error e => .error e
    | .ok state =>
      match RestartPolicy.ofRow row with
      | .error e => .error e
      | .ok restart => .ok ⟨name, state, restart, .ofRow row⟩

/-- The units of a feature. -/
def units (f : Feature) (chips : Nat) : List String := f.scope.units f.name chips

end Feature

end Converge
