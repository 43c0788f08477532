import Converge.Text.Unshown

/-!
# Quoted text

The form in which messages show a text that a reader must be able to tell from its surroundings.

* A quote, a backslash, a tab, a line feed, a carriage return and NUL have an escape of two signs;
* a character without a picture of its own (`unshown`) is written as its code point in
  hexadecimal;
* every other character stands for itself.
-/

namespace Converge.Text

/-- The digits of a number in base sixteen, lower case, without leading zeros. -/
def hexDigits (n : Nat) : List Char := Nat.toDigits 16 n

/-- One character inside quotes. -/
def quotedChar (c : Char) : List Char :=
  match c with
  | '\x00' => ['\\', '0']
  | '\t' => ['\\', 't']
  | '\n' => ['\\', 'n']
  | '\r' => ['\\', 'r']
  | '"' => ['\\', '"']
  | '\\' => ['\\', '\\']
  | c => if unshown c then ['\\', 'u', '\x7b'] ++ hexDigits c.toNat ++ ['\x7d'] else [c]

/-- A text in quotes. -/
def quoted (s : String) : String :=
  "\"" ++ String.ofList (s.toList.flatMap quotedChar) ++ "\""

/-- Texts in quotes, between brackets. -/
def quotedList (l : List String) : String := "[" ++ ", ".intercalate (l.map quoted) ++ "]"

/-- Pairs of texts in quotes, between braces. -/
def quotedPairs (l : List (String × String)) : String :=
  "\x7b" ++ ", ".intercalate (l.map fun (k, v) => quoted k ++ ": " ++ quoted v) ++ "\x7d"

end Converge.Text
