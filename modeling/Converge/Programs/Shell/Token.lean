import Converge.Programs.Shell.Script

/-!
# Words and signs of a script

`tokens?` cuts the text of a script into words, signs such as `;` and `&&`, and the signs that lead
a stream elsewhere. Quotes, backslashes and values are read here, so a word is a list of pieces.
-/

namespace Converge.Programs.Shell

/-- A part of the text of a script. -/
inductive Token where
  | word (w : Word)
  | sign (text : String)
  /-- A stream is led to what the next word says. -/
  | lead (stream : Option Nat) (text : String)
deriving DecidableEq, Repr

/-! ## 1. Names and brackets -/

def isNameStart (c : Char) : Bool := c.isAlpha || c == '_'

def isNameChar (c : Char) : Bool := c.isAlphanum || c == '_'

/-- The text up to the closing bracket that belongs to an open one, and what is behind it. Brackets
    in quotes do not count. -/
def inBrackets (opening closing : Char) :
    Nat → Option Char → List Char → List Char → Option (List Char × List Char)
  | _, _, _, [] => none
  | depth, some q, acc, c :: cs =>
    inBrackets opening closing depth (if c = q then none else some q) (c :: acc) cs
  | depth, none, acc, c :: cs =>
    if c = '\'' ∨ c = '"' then inBrackets opening closing depth (some c) (c :: acc) cs
    else if c = opening then inBrackets opening closing (depth + 1) none (c :: acc) cs
    else if c = closing then
      match depth with
      | 0 => some (acc.reverse, cs)
      | depth + 1 => inBrackets opening closing depth none (c :: acc) cs
    else inBrackets opening closing depth none (c :: acc) cs

/-- The piece of what stands between braces. -/
def bracedPiece (cs : List Char) (quoted : Bool) : Piece :=
  let name := cs.takeWhile isNameChar
  match cs.dropWhile isNameChar with
  | ':' :: '-' :: rest => .value (String.ofList name) (some (String.ofList rest)) quoted
  | '-' :: rest => .value (String.ofList name) (some (String.ofList rest)) quoted
  | _ => .value (String.ofList (if name.isEmpty then cs else name)) none quoted

/-- The piece after a dollar sign, and what is behind it. -/
def afterDollar (quoted : Bool) : List Char → Option (Piece × List Char)
  | '(' :: '(' :: cs =>
    (inBrackets '(' ')' 1 none [] cs).bind fun (inside, rest) =>
      match inside.reverse with
      | ')' :: expr => some (.number (String.ofList expr.reverse) quoted, rest)
      | _ => none
  | '(' :: cs =>
    (inBrackets '(' ')' 0 none [] cs).map fun (inside, rest) =>
      (.output (String.ofList inside) quoted, rest)
  | '\x7b' :: cs =>
    (inBrackets '\x7b' '\x7d' 0 none [] cs).map fun (inside, rest) =>
      (bracedPiece inside quoted, rest)
  | c :: cs =>
    if isNameStart c then
      some (.value (String.ofList (c :: cs.takeWhile isNameChar)) none quoted,
        cs.dropWhile isNameChar)
    else if c.isDigit || "?#@*$!".toList.contains c then some (.value c.toString none quoted, cs)
    else some (.plain "$" quoted, c :: cs)
  | [] => some (.plain "$" quoted, [])

/-! ## 2. Words -/

/-- Adds a character to the pieces, newest first. -/
def addChar (c : Char) (quoted : Bool) : List Piece → List Piece
  | .plain t q :: ps =>
    if q = quoted then .plain (t.push c) q :: ps else .plain c.toString quoted :: .plain t q :: ps
  | ps => .plain c.toString quoted :: ps

/-- Reads up to a closing double quote. `fuel` bounds the length of the text. -/
def quotedPieces : Nat → List Piece → List Char → Option (List Piece × List Char)
  | 0, _, _ => none
  | _, _, [] => none
  | _ + 1, acc, '"' :: cs => some (acc, cs)
  | fuel + 1, acc, '\\' :: c :: cs =>
    if c = '\n' then quotedPieces fuel acc cs
    else if "$`\"\\".toList.contains c then quotedPieces fuel (addChar c true acc) cs
    else quotedPieces fuel (addChar c true (addChar '\\' true acc)) cs
  | fuel + 1, acc, '$' :: cs =>
    (afterDollar true cs).bind fun (p, cs) => quotedPieces fuel (p :: acc) cs
  | fuel + 1, acc, c :: cs =>
    if c = '\x60' then
      let inside := cs.takeWhile (· != '\x60')
      quotedPieces fuel (.output (String.ofList inside) true :: acc)
        ((cs.dropWhile (· != '\x60')).drop 1)
    else quotedPieces fuel (addChar c true acc) cs

/-- A character that ends a word. -/
def endsWord (c : Char) : Bool := " \t\n;&|<>()".toList.contains c

/-- Reads a word. `fuel` bounds the length of the text. -/
def wordPieces : Nat → List Piece → List Char → Option (List Piece × List Char)
  | 0, _, _ => none
  | _, acc, [] => some (acc.reverse, [])
  | fuel + 1, acc, '\'' :: cs =>
    match cs.dropWhile (· != '\'') with
    | _ :: rest =>
      wordPieces fuel (.plain (String.ofList (cs.takeWhile (· != '\''))) true :: acc) rest
    | [] => none
  | fuel + 1, acc, '"' :: cs =>
    (quotedPieces (cs.length + 1) (.plain "" true :: acc) cs).bind fun (acc, cs) =>
      wordPieces fuel acc cs
  | fuel + 1, acc, '\\' :: c :: cs =>
    if c = '\n' then wordPieces fuel acc cs else wordPieces fuel (.plain c.toString true :: acc) cs
  | fuel + 1, acc, '$' :: cs =>
    (afterDollar false cs).bind fun (p, cs) => wordPieces fuel (p :: acc) cs
  | fuel + 1, acc, c :: cs =>
    if endsWord c then some (acc.reverse, c :: cs)
    else if c = '\x60' then
      let inside := cs.takeWhile (· != '\x60')
      wordPieces fuel (.output (String.ofList inside) false :: acc)
        ((cs.dropWhile (· != '\x60')).drop 1)
    else wordPieces fuel (addChar c false acc) cs

/-! ## 3. Tokens -/

/-- The sign at the beginning, the longest one. -/
def signAt : List Char → Option (String × List Char)
  | '&' :: '&' :: cs => some ("&&", cs)
  | '|' :: '|' :: cs => some ("||", cs)
  | '\n' :: cs => some (";", cs)
  | c :: cs => if ";&|()".toList.contains c then some (c.toString, cs) else none
  | [] => none

/-- The sign that leads a stream, at the beginning. -/
def leadAt : List Char → Option (String × List Char)
  | '>' :: '>' :: cs => some (">>", cs)
  | '>' :: '&' :: cs => some (">&", cs)
  | '>' :: cs => some (">", cs)
  | '<' :: cs => some ("<", cs)
  | _ => none

/-- Cuts a text into tokens; `fuel` bounds its length. `none` if a quote or bracket is open. -/
def tokensWithin : Nat → List Token → List Char → Option (List Token)
  | _, acc, [] => some acc.reverse
  | 0, _, _ => none
  | fuel + 1, acc, c :: cs =>
    if c = ' ' ∨ c = '\t' then tokensWithin fuel acc cs
    else if c = '#' then tokensWithin fuel acc (cs.dropWhile (· != '\n'))
    else
      match signAt (c :: cs) with
      | some (t, rest) => tokensWithin fuel (.sign t :: acc) rest
      | none =>
        match leadAt (c :: cs), leadAt cs with
        | some (t, rest), _ => tokensWithin fuel (.lead none t :: acc) rest
        | none, some (t, rest) =>
          if c.isDigit then tokensWithin fuel (.lead (some (c.toNat - 48)) t :: acc) rest
          else
            (wordPieces (cs.length + 2) [] (c :: cs)).bind fun (w, rest) =>
              tokensWithin fuel (.word w :: acc) rest
        | none, none =>
          (wordPieces (cs.length + 2) [] (c :: cs)).bind fun (w, rest) =>
            tokensWithin fuel (.word w :: acc) rest

/-- Cuts the text of a script into tokens. -/
def tokens? (text : String) : Option (List Token) :=
  tokensWithin (text.length + 1) [] text.toList

end Converge.Programs.Shell
