import Converge.Toml.Quoting
import Converge.Toml.Value

/-!
# Writing settings files

What is written is simpler than what can be read: a `Sheet` of named sections, in which every
entry is a number, a text or a list of texts. Entries and sections are written in order, with an
empty line between sections; a list of two or more texts has one text to a line.

`Sheet.entries` is the table that a sheet means.
-/

namespace Converge.Toml

/-- A value that can be written. -/
inductive Plain where
  | number (n : Nat)
  | text (s : String)
  | texts (l : List String)
deriving DecidableEq, Repr

/-- The value that is meant. -/
def Plain.toValue : Plain → Value
  | .number n => .int n
  | .text s => .str s
  | .texts l => .arr (l.map .str)

/-- Named sections of named values. -/
abbrev Sheet := List (String × List (String × Plain))

/-- The table that a sheet means. -/
def Sheet.entries (sheet : Sheet) : Entries :=
  sheet.map fun (name, fields) => (name, .table (fields.map fun (f, v) => (f, v.toValue)))

namespace Writer

/-- A value as it is written. -/
def value : Plain → List Char
  | .number n => Nat.toDigits 10 n
  | .text s => Quoting.write s
  | .texts [] => ['[', ']']
  | .texts [s] => ['['] ++ Quoting.write s ++ [']']
  | .texts l =>
    ['[', '\n'] ++ l.flatMap (fun s => [' ', ' ', ' ', ' '] ++ Quoting.write s ++ [',', '\n']) ++
      [']']

/-- The line of an entry. -/
def entry (name : String) (v : Plain) : List Char :=
  name.toList ++ [' ', '=', ' '] ++ value v ++ ['\n']

/-- The header of a section, and its entries. -/
def table (name : String) (fields : List (String × Plain)) : List Char :=
  ['['] ++ name.toList ++ [']', '\n'] ++ fields.flatMap fun (f, v) => entry f v

/-- The sections, with an empty line between neighbours. -/
def tables : Sheet → List Char
  | [] => []
  | [(name, fields)] => table name fields
  | (name, fields) :: rest => table name fields ++ ['\n'] ++ tables rest

end Writer

/-- **The text of a sheet.** -/
def Sheet.text (sheet : Sheet) : String := String.ofList (Writer.tables sheet)

end Converge.Toml
