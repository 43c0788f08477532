/-!
# Values of settings files

A settings file is a table of named values, and tables may hold tables. Of a fraction and of a
moment only the kind is kept: no setting is either.
-/

namespace Converge.Toml

/-- A value of a settings file. -/
inductive Value where
  | str (s : String)
  | int (n : Int)
  | bool (b : Bool)
  /-- A number with a fraction or an exponent, an infinity, or no number. -/
  | fraction
  /-- A date, a time of day, or both. -/
  | moment
  | arr (items : List Value)
  | table (entries : List (String × Value))
deriving Inhabited, Repr

/-- Named values; each name occurs once. -/
abbrev Entries := List (String × Value)

/-- The value of a name. -/
def Entries.get? (es : Entries) (name : String) : Option Value :=
  (es.find? fun e => e.1 == name).map (·.2)

mutual

/-- Every integer in the value fits 64 bits, with a sign or without. -/
def Value.isNarrow : Value → Bool
  | .int n => -0x8000000000000000 ≤ n && n < 0x10000000000000000
  | .arr items => allNarrow items
  | .table entries => entriesNarrow entries
  | _ => true

/-- Every integer in the values fits 64 bits. -/
def allNarrow : List Value → Bool
  | [] => true
  | v :: rest => v.isNarrow && allNarrow rest

/-- Every integer in the named values fits 64 bits. -/
def entriesNarrow : List (String × Value) → Bool
  | [] => true
  | (_, v) :: rest => v.isNarrow && entriesNarrow rest

end

end Converge.Toml
