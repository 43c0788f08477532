import Converge.Toml.Document
import Converge.Toml.Quoting
import Converge.Toml.Scalar

/-!
# Reading settings files

A file is read line by line: a header in brackets, an entry `path = value`, or nothing, each with
an optional comment behind it.

* `Rest` is what is left to read; a reader gives its value with the rest behind it;
* readers that follow the nesting of values take a number that bounds the steps (`fuel`) and the
  depth that may still be opened;
* `parse?` reads a whole file.
-/

namespace Converge.Toml.Reader

abbrev Rest := List Char

/-! ## 1. Between the values -/

def skipBlanks (cs : Rest) : Rest := cs.dropWhile Quoting.isBlank

/-- The rest behind blanks, line breaks and comments. A comment may not hold a control character,
    nor may a carriage return stand alone. -/
def skipGaps? (inComment : Bool) : Rest → Option Rest
  | [] => some []
  | '\n' :: cs => skipGaps? false cs
  | '\r' :: '\n' :: cs => skipGaps? false cs
  | c :: cs =>
    if inComment then (if Quoting.isControl c then none else skipGaps? true cs)
    else if Quoting.isBlank c then skipGaps? false cs
    else if c == '#' then skipGaps? true cs
    else some (c :: cs)

/-- The rest behind the end of a line, at which only a comment may stand. -/
def lineEnd? (cs : Rest) : Option Rest :=
  match skipBlanks cs with
  | [] => some []
  | '#' :: cs => skipGaps? true cs
  | '\n' :: cs => some cs
  | '\r' :: '\n' :: cs => some cs
  | _ => none

/-! ## 2. Names -/

/-- A character of a name without quotes. -/
def isNameChar (c : Char) : Bool := c.isAlphanum || c == '-' || c == '_'

/-- A name with or without quotes. -/
def name? (cs : Rest) : Option (String × Rest) :=
  match cs with
  | '"' :: _ | '\'' :: _ => Quoting.readOnLine? cs
  | cs =>
    let name := cs.takeWhile isNameChar
    if name.isEmpty then none else some (String.ofList name, cs.dropWhile isNameChar)

/-- Names between points, and blanks around each. -/
def path? (fuel : Nat) (cs : Rest) : Option (List String × Rest) :=
  match fuel with
  | 0 => none
  | fuel + 1 =>
    match name? (skipBlanks cs) with
    | none => none
    | some (name, rest) =>
      match skipBlanks rest with
      | '.' :: rest => (path? fuel rest).map fun (names, rest) => (name :: names, rest)
      | rest => some ([name], rest)

/-! ## 3. Values -/

mutual

/-- The value at the front. -/
def value? (fuel depth : Nat) (cs : Rest) : Option (Value × Rest) :=
  match fuel with
  | 0 => none
  | fuel + 1 =>
    match cs with
    | '"' :: _ | '\'' :: _ => (Quoting.read? cs).map fun (s, rest) => (.str s, rest)
    | '[' :: rest => if depth == 0 then none else items? fuel (depth - 1) [] rest
    | '\x7b' :: rest =>
      if depth == 0 then none
      else
        match skipBlanks rest with
        | '\x7d' :: rest => some (.table [], rest)
        | rest => inline? fuel (depth - 1) [] rest
    | cs => Scalar.read? cs

/-- The items of an array whose bracket has been read; `done` holds the items before, newest
    first. -/
def items? (fuel depth : Nat) (done : List Value) (cs : Rest) : Option (Value × Rest) :=
  match fuel with
  | 0 => none
  | fuel + 1 =>
    match skipGaps? false cs with
    | none => none
    | some (']' :: rest) => some (.arr done.reverse, rest)
    | some cs =>
      match value? fuel depth cs with
      | none => none
      | some (v, rest) =>
        match skipGaps? false rest with
        | some (',' :: rest) => items? fuel depth (v :: done) rest
        | some (']' :: rest) => some (.arr (v :: done).reverse, rest)
        | _ => none

/-- The entries of a table whose brace has been read, on one line; `done` holds the entries before,
    newest first. -/
def inline? (fuel depth : Nat) (done : List (List String × Value)) (cs : Rest) :
    Option (Value × Rest) :=
  match fuel with
  | 0 => none
  | fuel + 1 =>
    match path? (cs.length + 1) cs with
    | some (path, '=' :: rest) =>
      match value? fuel depth (skipBlanks rest) with
      | none => none
      | some (v, rest) =>
        match skipBlanks rest with
        | ',' :: rest => inline? fuel depth ((path, v) :: done) rest
        | '\x7d' :: rest => (tableOf? ((path, v) :: done).reverse).map fun t => (t, rest)
        | _ => none
    | _ => none

end

/-- How deep arrays and tables inside values may be nested. -/
def maxDepth : Nat := 80

/-- Steps that suffice for the given rest. -/
def enough (cs : Rest) : Nat := 2 * cs.length + 2

/-! ## 4. Lines -/

/-- A line of a file. -/
inductive Line where
  | header (h : Header)
  | entry (path : List String) (v : Value)

/-- The line at the front, and the rest behind its end. -/
def line? (cs : Rest) : Option (Line × Rest) :=
  match cs with
  | '[' :: '[' :: rest =>
    match path? (rest.length + 1) rest with
    | some (path, ']' :: ']' :: rest) =>
      (lineEnd? rest).map fun rest => (.header (.element path), rest)
    | _ => none
  | '[' :: rest =>
    match path? (rest.length + 1) rest with
    | some (path, ']' :: rest) => (lineEnd? rest).map fun rest => (.header (.table path), rest)
    | _ => none
  | cs =>
    match path? (cs.length + 1) cs with
    | some (path, '=' :: rest) =>
      let rest := skipBlanks rest
      match value? (enough rest) maxDepth rest with
      | some (v, rest) => (lineEnd? rest).map fun rest => (.entry path v, rest)
      | none => none
    | _ => none

/-- The lines of a file. -/
def lines? (fuel : Nat) (cs : Rest) : Option (List Line) :=
  match fuel with
  | 0 => none
  | fuel + 1 =>
    match skipGaps? false cs with
    | none => none
    | some [] => some []
    | some cs =>
      match line? cs with
      | none => none
      | some (l, rest) => (lines? fuel rest).map fun ls => l :: ls

/-- The sections of lines, given the header and the entries (newest first) before them. -/
def sections (h : Header) (done : List (List String × Value)) : List Line → List Section
  | [] => [⟨h, done.reverse⟩]
  | .entry path v :: rest => sections h ((path, v) :: done) rest
  | .header h' :: rest => ⟨h, done.reverse⟩ :: sections h' [] rest

/-- A mark of the byte order may stand in front of a file. -/
def dropMark : Rest → Rest
  | '\uFEFF' :: cs => cs
  | cs => cs

end Reader

/-- **The table of a file's text.** -/
def parse? (text : String) : Option Entries :=
  let cs := Reader.dropMark text.toList
  (Reader.lines? (cs.length + 1) cs).bind fun ls => assemble? (Reader.sections .top [] ls)

end Converge.Toml
