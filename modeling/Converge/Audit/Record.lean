import Converge.Audit.Entry
import Converge.Json.Reader
import Converge.Timestamp

/-!
# Audit records

A record is an entry with the moment at which it was made. It is written as a JSON object on one
line and read back from one.

* `Record.text` writes the members in a fixed order and leaves out what is absent;
* `Record.ofMembers?` reads members in any order. A member that it does not know is passed over, a
  member given twice is an error, and **`null` reads as absent**;
* `Record.parse?` reads a text, which may also be an array of the nine values in order.
-/

namespace Converge.Audit

/-- An entry and its moment. -/
structure Record where
  time : Timestamp
  entry : Entry

namespace Record

/-! ## 1. Writing -/

/-- The members in order. -/
def members (r : Record) : List (String × Json) :=
  ("timestamp", .str r.time.text) :: r.entry.members

/-- The record on one line. -/
def text (r : Record) : String :=
  "\x7b" ++ ",".intercalate (r.members.map fun (k, v) => Json.quote k ++ ":" ++ v.compact) ++
    "\x7d"

/-! ## 2. Reading values -/

/-- The names of the members in order. -/
def memberNames : List String :=
  ["timestamp", "category", "source", "action", "outcome", "resource", "details", "error",
    "correlation_id"]

/-- One of a fixed set of names: as a text, or as the only member of an object, with `null`. -/
def tag? : Json → Option String
  | .str s => some s
  | .obj [(k, .null)] => some k
  | _ => none

/-- A text that may be absent. -/
def optionalText? : Json → Option (Option String)
  | .null => some none
  | .str s => some (some s)
  | _ => none

/-- A value that may be absent. -/
def optionalValue : Json → Option Json
  | .null => none
  | j => some j

/-- The member of a name; an absent one reads as `null`. -/
def memberOrNull (ms : List (String × Json)) (name : String) : Json :=
  ((ms.find? fun m => m.1 == name).map (·.2)).getD .null

/-- The record of the members of an object. -/
def ofMembers? (ms : List (String × Json)) : Option Record := do
  let known := ms.filter fun m => memberNames.contains m.1
  if !(decide (known.map (·.1)).Nodup) then none
  let required (name : String) : Option Json := (known.find? fun m => m.1 == name).map (·.2)
  let time ← (← (← required "timestamp").str?) |> Timestamp.parse?
  let category ← (← tag? (← required "category")) |> Category.ofName?
  let source ← (← required "source").str?
  let action ← (← required "action").str?
  let outcome ← (← tag? (← required "outcome")) |> Outcome.ofTag?
  let resource ← optionalText? (memberOrNull known "resource")
  let error ← optionalText? (memberOrNull known "error")
  let correlationId ← optionalText? (memberOrNull known "correlation_id")
  some ⟨time, ⟨category, source, action, outcome, resource,
    optionalValue (memberOrNull known "details"), error, correlationId⟩⟩

/-! ## 3. Reading texts -/

open Json.Reader in
/-- The members of an object whose brace has been read, in the order of the text; the values of
    unknown members are passed over. `done` holds the members before, newest first. -/
def membersOf (fuel : Nat) (done : List (String × Json)) (cs : List Char) :
    Option (List (String × Json) × List Char) :=
  match fuel with
  | 0 => none
  | fuel + 1 =>
    match skipGap cs with
    | '"' :: rest =>
      match string? rest with
      | none => none
      | some (name, rest) =>
        match skipGap rest with
        | ':' :: rest =>
          let one : Option (List (String × Json) × List Char) :=
            if memberNames.contains name then
              (value (enough rest) (maxDepth - 1) rest).map fun (v, r) => ((name, v) :: done, r)
            else (skip (enough rest) rest).map fun r => (done, r)
          match one with
          | none => none
          | some (done, rest) =>
            match skipGap rest with
            | ',' :: rest => membersOf fuel done rest
            | '\x7d' :: rest => some (done.reverse, rest)
            | _ => none
        | _ => none
    | _ => none

open Json.Reader in
/-- The record of a text. -/
def parse? (s : String) : Option Record :=
  let cs := s.toList
  match skipGap cs with
  | '\x7b' :: rest =>
    match skipGap rest with
    | '\x7d' :: _ => none
    | rest =>
      match membersOf (rest.length + 1) [] rest with
      | some (ms, rest) => if (skipGap rest).isEmpty then ofMembers? ms else none
      | none => none
  | '[' :: _ =>
    match value (enough cs) maxDepth cs with
    | some (.arr items, rest) =>
      if (skipGap rest).isEmpty && items.length == memberNames.length then
        ofMembers? (memberNames.zip items)
      else none
    | _ => none
  | _ => none

end Record

end Converge.Audit
