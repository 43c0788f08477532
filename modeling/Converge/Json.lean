import Converge.Decimal
import Converge.SortedMap

/-!
# JSON values

A value of the data format in which audit records travel. A number is an integer or, with a
fraction, an exponent or too many digits for 64 bits, a binary fraction given by its 64 bits. The
members of an object are in ascending order of their names, each name once; `Json.object` brings
a list of members into this form.

`compact` writes a value without any blank.
-/

namespace Converge

/-- A JSON value. -/
inductive Json where
  | null
  | bool (b : Bool)
  | int (n : Int)
  | float (bits : UInt64)
  | str (s : String)
  | arr (items : List Json)
  | obj (members : List (String × Json))
deriving Inhabited

namespace Json

/-! ## 1. Building and looking up -/

/-- An object of the given members; of several with one name the last. -/
def object (members : List (String × Json)) : Json :=
  .obj (members.foldl (fun acc (k, v) => SortedMap.insertEntry k v acc) [])

/-- A list of texts. -/
def texts (l : List String) : Json := .arr (l.map .str)

/-- A member of an object. -/
def get? : Json → String → Option Json
  | .obj members, k => SortedMap.lookup k members
  | _, _ => none

/-- The members of an object. -/
def members : Json → List (String × Json)
  | .obj ms => ms
  | _ => []

/-- The items of an array. -/
def items : Json → List Json
  | .arr l => l
  | _ => []

/-- The text of a string. -/
def str? : Json → Option String
  | .str s => some s
  | _ => none

/-- The value of a natural number. -/
def nat? : Json → Option Nat
  | .int n => if 0 ≤ n then some n.toNat else none
  | _ => none

/-! ## 2. Text -/

/-- One character inside a string. -/
def escapeChar (c : Char) : List Char :=
  match c with
  | '"' => ['\\', '"']
  | '\\' => ['\\', '\\']
  | '\n' => ['\\', 'n']
  | '\r' => ['\\', 'r']
  | '\t' => ['\\', 't']
  | '\x08' => ['\\', 'b']
  | '\x0c' => ['\\', 'f']
  | c =>
    if c.toNat < 0x20 then
      let digits := Nat.toDigits 16 c.toNat
      ['\\', 'u'] ++ List.replicate (4 - digits.length) '0' ++ digits
    else [c]

/-- A string as it is written. -/
def quote (s : String) : String := "\"" ++ String.ofList (s.toList.flatMap escapeChar) ++ "\""

mutual

/-- The text of a value, without blanks. -/
def compact : Json → String
  | .null => "null"
  | .bool true => "true"
  | .bool false => "false"
  | .int n => toString n
  | .float bits => Decimal.text bits
  | .str s => quote s
  | .arr items => "[" ++ ",".intercalate (compactItems items) ++ "]"
  | .obj members => "\x7b" ++ ",".intercalate (compactMembers members) ++ "\x7d"

/-- The texts of the items of an array. -/
def compactItems : List Json → List String
  | [] => []
  | j :: rest => compact j :: compactItems rest

/-- The texts of the members of an object. -/
def compactMembers : List (String × Json) → List String
  | [] => []
  | (k, j) :: rest => (quote k ++ ":" ++ compact j) :: compactMembers rest

end

end Json

end Converge
