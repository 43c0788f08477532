import Converge.Text.Search

/-!
# Texts in settings files

A text is written in one of four ways: with escapes or as it stands, each on one line or over
several. A text over several lines begins behind a line feed that does not belong to it, and may
end in one or two quotes.

* `read?` reads a text in any of the ways, from its first quote on;
* `write` chooses the plainest way that can hold the text: escapes on one line if none is needed,
  then as it stands, then over several lines.
-/

namespace Converge.Toml.Quoting

/-! ## 1. Characters -/

/-- A control character other than the tab. -/
def isControl (c : Char) : Bool := (c.toNat < 0x20 && c != '\t') || c.toNat == 0x7F

def isBlank (c : Char) : Bool := c == ' ' || c == '\t'

/-- The value of a digit in base sixteen. -/
def hexDigit? (c : Char) : Option Nat :=
  if c.isDigit then some (c.toNat - '0'.toNat)
  else if 'a' ≤ c && c ≤ 'f' then some (c.toNat - 'a'.toNat + 10)
  else if 'A' ≤ c && c ≤ 'F' then some (c.toNat - 'A'.toNat + 10)
  else none

/-- The character whose code point has the given digits in base sixteen. -/
def codePoint? (digits : List Char) : Option Char := do
  let values ← digits.mapM hexDigit?
  let n := values.foldl (fun n d => n * 16 + d) 0
  if n.isValidChar then some (Char.ofNat n) else none

/-- The character behind an escape of two signs. -/
def shortEscape? : Char → Option Char
  | 'b' => some '\x08'
  | 't' => some '\t'
  | 'n' => some '\n'
  | 'f' => some '\x0c'
  | 'r' => some '\r'
  | '"' => some '"'
  | '\\' => some '\\'
  | _ => none

/-- The character of an escape whose backslash has been read, and the rest. -/
def escape? : List Char → Option (Char × List Char)
  | 'u' :: rest =>
    if (rest.take 4).length == 4 then (codePoint? (rest.take 4)).map fun c => (c, rest.drop 4)
    else none
  | 'U' :: rest =>
    if (rest.take 8).length == 8 then (codePoint? (rest.take 8)).map fun c => (c, rest.drop 8)
    else none
  | c :: rest => (shortEscape? c).map fun d => (d, rest)
  | [] => none

/-! ## 2. Reading -/

/-- A text with escapes on one line, behind its quote. `done` holds what was read, newest first. -/
def basic? (fuel : Nat) (done : List Char) (cs : List Char) : Option (String × List Char) :=
  match fuel with
  | 0 => none
  | fuel + 1 =>
    match cs with
    | [] => none
    | '"' :: rest => some (String.ofList done.reverse, rest)
    | '\\' :: rest =>
      match escape? rest with
      | some (c, rest) => basic? fuel (c :: done) rest
      | none => none
    | c :: rest => if isControl c then none else basic? fuel (c :: done) rest

/-- A text as it stands on one line, behind its quote. -/
def literal? (done : List Char) : List Char → Option (String × List Char)
  | [] => none
  | '\'' :: rest => some (String.ofList done.reverse, rest)
  | c :: rest => if isControl c then none else literal? (c :: done) rest

/-- The rest behind a line break. -/
def lineBreak? : List Char → Option (List Char)
  | '\n' :: rest => some rest
  | '\r' :: '\n' :: rest => some rest
  | _ => none

/-- The rest behind blanks and line breaks. -/
def skipBreaks : List Char → List Char
  | '\r' :: '\n' :: rest => skipBreaks rest
  | c :: rest => if isBlank c || c == '\n' then skipBreaks rest else c :: rest
  | [] => []

/-- The rest behind a line break at the end of blanks, and behind all that is blank there. -/
def joinedLine? (cs : List Char) : Option (List Char) :=
  (lineBreak? (cs.dropWhile isBlank)).map skipBreaks

/-- The rest without a line break at its front. -/
def dropLineBreak (cs : List Char) : List Char := (lineBreak? cs).getD cs

/-- The end of a text over several lines: three quotes, before which one or two may belong to the
    text. Gives the number of quotes that belong to the text, and the rest. -/
def closing? (q : Char) : List Char → Option (Nat × List Char)
  | a :: b :: c :: rest =>
    if a == q && b == q && c == q then
      let more := min 2 (rest.takeWhile (· == q)).length
      some (more, rest.drop more)
    else none
  | _ => none

/-- A text with escapes over several lines, behind its quotes. -/
def basicLines? (fuel : Nat) (done : List Char) (cs : List Char) : Option (String × List Char) :=
  match fuel with
  | 0 => none
  | fuel + 1 =>
    match closing? '"' cs with
    | some (n, rest) => some (String.ofList (List.replicate n '"' ++ done).reverse, rest)
    | none =>
      match cs with
      | [] => none
      | '\\' :: rest =>
        match joinedLine? rest with
        | some rest => basicLines? fuel done rest
        | none =>
          match escape? rest with
          | some (c, rest) => basicLines? fuel (c :: done) rest
          | none => none
      | '\r' :: '\n' :: rest => basicLines? fuel ('\n' :: '\r' :: done) rest
      | c :: rest =>
        if isControl c && c != '\n' then none else basicLines? fuel (c :: done) rest

/-- A text as it stands over several lines, behind its quotes. -/
def literalLines? (fuel : Nat) (done : List Char) (cs : List Char) :
    Option (String × List Char) :=
  match fuel with
  | 0 => none
  | fuel + 1 =>
    match closing? '\'' cs with
    | some (n, rest) => some (String.ofList (List.replicate n '\'' ++ done).reverse, rest)
    | none =>
      match cs with
      | [] => none
      | '\r' :: '\n' :: rest => literalLines? fuel ('\n' :: '\r' :: done) rest
      | c :: rest =>
        if isControl c && c != '\n' then none else literalLines? fuel (c :: done) rest

/-- A text on one line, from its quote on. -/
def readOnLine? : List Char → Option (String × List Char)
  | '"' :: rest => basic? (rest.length + 1) [] rest
  | '\'' :: rest => literal? [] rest
  | _ => none

/-- **A text in any way**, from its first quote on. -/
def read? : List Char → Option (String × List Char)
  | '"' :: '"' :: '"' :: rest =>
    let rest := dropLineBreak rest
    basicLines? (rest.length + 1) [] rest
  | '\'' :: '\'' :: '\'' :: rest =>
    let rest := dropLineBreak rest
    literalLines? (rest.length + 1) [] rest
  | cs => readOnLine? cs

/-! ## 3. Writing -/

/-- The ways to write a text. -/
inductive Way where
  | basic
  | literal
  | basicLines
  | literalLines
deriving DecidableEq, Repr

/-- The greatest number of neighbours that are `q`. -/
def longestRun (q : Char) (cs : List Char) : Nat :=
  (cs.foldl (fun (best, now) c =>
    let now := if c == q then now + 1 else 0
    (max best now, now)) ((0, 0) : Nat × Nat)).1

/-- A character that only an escape can write. -/
def needsEscape (c : Char) : Bool := isControl c && c != '\n'

/-- The plainest way that can hold a text. -/
def chooseWay (cs : List Char) : Way :=
  let escapes := cs.any needsEscape
  let breaks := cs.contains '\n'
  let backslash := cs.contains '\\'
  let double := longestRun '"' cs
  let single := longestRun '\'' cs
  if !escapes && !backslash && double == 0 && !breaks then .basic
  else if !escapes && single == 0 && !breaks then .literal
  else if !escapes && !backslash && double ≤ 2 then .basicLines
  else if !escapes && single ≤ 2 then .literalLines
  else if breaks then .basicLines
  else .basic

/-- Four digits in base sixteen, upper case. -/
def hex4 (n : Nat) : List Char :=
  let digits := (Nat.toDigits 16 n).map Char.toUpper
  List.replicate (4 - digits.length) '0' ++ digits

/-- The escape of a character, if it has to be escaped whatever stands before it. -/
def escapeOf? (lines : Bool) (c : Char) : Option (List Char) :=
  match c with
  | '\x08' => some ['\\', 'b']
  | '\t' => some ['\\', 't']
  | '\n' => if lines then none else some ['\\', 'n']
  | '\x0c' => some ['\\', 'f']
  | '\r' => some ['\\', 'r']
  | '\\' => some ['\\', '\\']
  | c => if isControl c then some (['\\', 'u'] ++ hex4 c.toNat) else none

/-- A text with escapes. Of neighbouring quotes `limit` stand as they are, `run` of them already. -/
def escaped (lines : Bool) (limit run : Nat) : List Char → List Char
  | [] => []
  | c :: rest =>
    if c == '"' then
      if run < limit then '"' :: escaped lines limit (run + 1) rest
      else '\\' :: '"' :: escaped lines limit 0 rest
    else
      match escapeOf? lines c with
      | some e => e ++ escaped lines limit 0 rest
      | none => c :: escaped lines limit 0 rest

/-- A text in the given way. -/
def writeAs (w : Way) (cs : List Char) : List Char :=
  match w with
  | .basic => ['"'] ++ escaped false 0 0 cs ++ ['"']
  | .literal => ['\''] ++ cs ++ ['\'']
  | .basicLines => ['"', '"', '"', '\n'] ++ escaped true 2 0 cs ++ ['"', '"', '"']
  | .literalLines => ['\'', '\'', '\'', '\n'] ++ cs ++ ['\'', '\'', '\'']

/-- **A text in the plainest way that can hold it.** -/
def write (s : String) : List Char := writeAs (chooseWay s.toList) s.toList

end Converge.Toml.Quoting
