import Converge.Programs.Format

/-!
# Expressions of a script

Whole numbers, names, brackets and the usual operators; a comparison is one or zero. An operator of
a higher level binds closer, and operators of one level are taken from left to right.
-/

namespace Converge.Programs.Shell.Arithmetic

/-- The operators of a level, longer ones first. -/
def operators : Nat → List String
  | 0 => ["||"]
  | 1 => ["&&"]
  | 2 => ["==", "!="]
  | 3 => ["<=", ">=", "<", ">"]
  | 4 => ["+", "-"]
  | _ => ["*", "/", "%"]

/-- The number of levels. -/
def levels : Nat := 6

def ofBool (b : Bool) : Int := if b then 1 else 0

/-- The value of an operator; `none` for a division by zero. -/
def apply (op : String) (a b : Int) : Option Int :=
  match op with
  | "+" => some (a + b)
  | "-" => some (a - b)
  | "*" => some (a * b)
  | "/" => if b = 0 then none else some (a.tdiv b)
  | "%" => if b = 0 then none else some (a.tmod b)
  | "==" => some (ofBool (a = b))
  | "!=" => some (ofBool (a ≠ b))
  | "<" => some (ofBool (a < b))
  | "<=" => some (ofBool (a ≤ b))
  | ">" => some (ofBool (b < a))
  | ">=" => some (ofBool (b ≤ a))
  | "&&" => some (ofBool (a ≠ 0 ∧ b ≠ 0))
  | _ => some (ofBool (a ≠ 0 ∨ b ≠ 0))

/-- The operator at the beginning, and what is behind it. -/
def operatorAt (level : Nat) (cs : List Char) : Option (String × List Char) :=
  ((operators level).find? fun op => op.toList.isPrefixOf cs).map fun op =>
    (op, cs.drop op.length)

mutual

/-- A number, a name, or an expression in brackets, with signs before it. -/
def atom (value : String → Int) : Nat → List Char → Option (Int × List Char)
  | 0, _ => none
  | fuel + 1, cs =>
    match cs with
    | '-' :: cs => (atom value fuel cs).map fun (n, cs) => (-n, cs)
    | '+' :: cs => atom value fuel cs
    | '!' :: cs => (atom value fuel cs).map fun (n, cs) => (ofBool (n = 0), cs)
    | '$' :: cs => atom value fuel cs
    | '(' :: cs =>
      (level value fuel 0 cs).bind fun (n, cs) =>
        match cs with
        | ')' :: cs => some (n, cs)
        | _ => none
    | cs =>
      let word := cs.takeWhile fun c => c.isAlphanum || c == '_'
      let rest := cs.dropWhile fun c => c.isAlphanum || c == '_'
      match word with
      | [] => none
      | c :: _ =>
        if c.isDigit then (unsigned? word).map fun n => ((n : Int), rest)
        else some (value (String.ofList word), rest)

/-- An expression of a level. -/
def level (value : String → Int) : Nat → Nat → List Char → Option (Int × List Char)
  | 0, _, _ => none
  | fuel + 1, n, cs =>
    if levels ≤ n then atom value fuel cs
    else (level value fuel (n + 1) cs).bind fun (a, cs) => levelAfter value fuel n a cs

/-- What follows the first part of an expression. -/
def levelAfter (value : String → Int) : Nat → Nat → Int → List Char → Option (Int × List Char)
  | 0, _, _, _ => none
  | fuel + 1, n, a, cs =>
    match operatorAt n cs with
    | none => some (a, cs)
    | some (op, cs) =>
      (level value fuel (n + 1) cs).bind fun (b, cs) =>
        (apply op a b).bind fun c => levelAfter value fuel n c cs

end

/-- The value of an expression, given the values of names. -/
def eval? (value : String → Int) (expression : String) : Option Int :=
  let cs := expression.toList.filter fun c => !c.isWhitespace
  match level value (8 * cs.length + 8) 0 cs with
  | some (n, []) => some n
  | _ => none

end Converge.Programs.Shell.Arithmetic
