import Converge.Programs.Shell.Token

/-!
# Reading scripts

`Script.parse` reads the text of a script. Every function here reads one form from a list of
tokens and answers with the script and the tokens behind it; `fuel` bounds the number of tokens.
-/

namespace Converge.Programs.Shell

namespace Reader

/-- The word that the first token is, if nothing in it is quoted. -/
def bareWord? : List Token → Option String
  | .word [.plain t false] :: _ => some t
  | _ => none

/-- The first token as messages show it. -/
def shown : List Token → String
  | .sign t :: _ => t
  | ts => (bareWord? ts).getD "word"

/-- The words that end a list of commands. -/
def closers : List String := ["then", "do", "done", "fi", "elif", "else", "\x7d"]

/-- A list of commands ends here. -/
def closes (ts : List Token) : Bool :=
  match ts with
  | [] => true
  | .sign ")" :: _ => true
  | ts => (bareWord? ts).any closers.contains

/-- Skips signs that separate commands. -/
def skipBreaks : List Token → List Token
  | .sign ";" :: ts => skipBreaks ts
  | ts => ts

/-- Skips a certain word. -/
def expect (word : String) (ts : List Token) : Option (List Token) :=
  if bareWord? ts = some word then some ts.tail else none

/-- The stream with a number. -/
def stream? : Nat → Option Stream
  | 1 => some .out
  | 2 => some .err
  | _ => none

/-- Where a stream is led. -/
def lead? (number : Option Nat) (text : String) (w : Word) : Option Lead :=
  match text, w with
  | "<", w => some (.fromFile w)
  | ">&", [.plain t _] =>
    match (stream? (number.getD 1)), (t.toNat?.bind stream?) with
    | some source, some target => some (.toStream source target)
    | _, _ => none
  | ">", w => (stream? (number.getD 1)).map fun source => .toFile source false w
  | ">>", w => (stream? (number.getD 1)).map fun source => .toFile source true w
  | _, _ => none

/-- Reads words and leads of a simple command. -/
def simple (words : List Word) (leads : List Lead) : List Token → Option (Script × List Token)
  | .word w :: ts => simple (w :: words) leads ts
  | .lead n t :: .word w :: ts =>
    match lead? n t w with
    | some l => simple words (l :: leads) ts
    | none => none
  | .lead _ _ :: _ => none
  | ts =>
    if words.isEmpty && leads.isEmpty then none
    else some (.simple words.reverse leads.reverse, ts)

/-- Reads the leads behind a form. -/
def leadsAfter (s : Script) (isolated : Bool) (ts : List Token) : Option (Script × List Token) :=
  match simple [] [] ts with
  | some (.simple [] leads, ts) => some (.group isolated s leads, ts)
  | _ => if isolated then some (.group true s [], ts) else some (s, ts)

/-- Reads the values of a loop over values, up to a separator. -/
def values (acc : List Word) : List Token → List Word × List Token
  | .word w :: ts => values (w :: acc) ts
  | ts => (acc.reverse, ts)

mutual

/-- Commands one after another. -/
def list : Nat → List Token → Option (Script × List Token)
  | 0, _ => none
  | fuel + 1, ts =>
    let ts := skipBreaks ts
    if closes ts then some (.nothing, ts)
    else
      (chain fuel ts).bind fun (first, ts) =>
        match ts with
        | .sign ";" :: ts | .sign "&" :: ts =>
          (list fuel ts).map fun (rest, ts) => (.both first rest, ts)
        | ts => some (first, ts)

/-- Commands that depend on each other's success. -/
def chain : Nat → List Token → Option (Script × List Token)
  | 0, _ => none
  | fuel + 1, ts => (pipeline fuel ts).bind fun (first, ts) => chainAfter fuel first ts

/-- What follows the first command of a chain. -/
def chainAfter : Nat → Script → List Token → Option (Script × List Token)
  | 0, _, _ => none
  | fuel + 1, first, ts =>
    match ts with
    | .sign "&&" :: ts =>
      (pipeline fuel (skipBreaks ts)).bind fun (next, ts) =>
        chainAfter fuel (.andThen first next) ts
    | .sign "||" :: ts =>
      (pipeline fuel (skipBreaks ts)).bind fun (next, ts) =>
        chainAfter fuel (.orElse first next) ts
    | ts => some (first, ts)

/-- Commands whose output the next one reads. -/
def pipeline : Nat → List Token → Option (Script × List Token)
  | 0, _ => none
  | fuel + 1, ts =>
    if bareWord? ts = some "!" then
      (pipeline fuel ts.tail).map fun (s, ts) => (.invert s, ts)
    else
      (command fuel ts).bind fun (first, ts) =>
        match ts with
        | .sign "|" :: ts =>
          (pipeline fuel (skipBreaks ts)).map fun (next, ts) => (.pipe first next, ts)
        | ts => some (first, ts)

/-- A branch behind its opening word. -/
def branch : Nat → List Token → Option (Script × List Token)
  | 0, _ => none
  | fuel + 1, ts =>
    (list fuel ts).bind fun (condition, ts) =>
      (expect "then" ts).bind fun ts =>
        (list fuel ts).bind fun (yes, ts) =>
          match bareWord? ts with
          | some "elif" => (branch fuel ts.tail).map fun (no, ts) => (.branch condition yes no, ts)
          | some "else" =>
            (list fuel ts.tail).bind fun (no, ts) =>
              (expect "fi" ts).map fun ts => (.branch condition yes no, ts)
          | some "fi" => some (.branch condition yes .nothing, ts.tail)
          | _ => none

/-- The body of a loop. -/
def body : Nat → List Token → Option (Script × List Token)
  | 0, _ => none
  | fuel + 1, ts =>
    (expect "do" (skipBreaks ts)).bind fun ts =>
      (list fuel ts).bind fun (b, ts) => (expect "done" ts).map fun ts => (b, ts)

/-- One command. -/
def command : Nat → List Token → Option (Script × List Token)
  | 0, _ => none
  | fuel + 1, ts =>
    match ts with
    | .sign "(" :: ts =>
      (list fuel ts).bind fun (s, ts) =>
        match ts with
        | .sign ")" :: ts => leadsAfter s true ts
        | _ => none
    | ts =>
      match bareWord? ts with
      | some "\x7b" =>
        (list fuel ts.tail).bind fun (s, ts) =>
          (expect "\x7d" ts).bind fun ts => leadsAfter s false ts
      | some "if" => (branch fuel ts.tail).bind fun (s, ts) => leadsAfter s false ts
      | some "while" =>
        (list fuel ts.tail).bind fun (c, ts) =>
          (body fuel ts).bind fun (b, ts) => leadsAfter (.loop false c b) false ts
      | some "until" =>
        (list fuel ts.tail).bind fun (c, ts) =>
          (body fuel ts).bind fun (b, ts) => leadsAfter (.loop true c b) false ts
      | some "for" =>
        match ts.tail with
        | .word [.plain name false] :: ts =>
          let (vs, ts) : List Word × List Token :=
            match bareWord? ts with
            | some "in" => values [] ts.tail
            | _ => ([[.value "@" none true]], ts)
          (body fuel ts).bind fun (b, ts) => leadsAfter (.each name vs b) false ts
        | _ => none
      | some word => if closers.contains word then none else simple [] [] ts
      | none => simple [] [] ts

end

end Reader

/-- **Reads the text of a script**, or says why it is none. -/
def Script.parse (text : String) : Except String Script :=
  match tokens? text with
  | none => .error "Syntax error: Unterminated quoted string"
  | some ts =>
    match Reader.list (8 * ts.length + 8) ts with
    | some (s, []) => .ok s
    | some (_, ts) => .error ("Syntax error: \"" ++ Reader.shown ts ++ "\" unexpected")
    | none => .error "Syntax error: end of file unexpected"

end Converge.Programs.Shell
