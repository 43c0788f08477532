import Converge.Row
import Converge.Testkit.Recorder

/-!
# Checks after a test

Each check answers with nothing or with the mismatch that it found. `inOrder` looks for the
patterns one after another: each is searched for behind the line that the one before it was found
in.
-/

namespace Converge.Testkit

/-- What a check found. -/
inductive Mismatch where
  | commands (expected actual : List String)
  | notFound (pattern : String) (actual : List String)
  | count (pattern : String) (expected actual : Nat)
  | cache (id : RowKey) (expected actual : Option Row)
  | status (id : RowKey) (expected actual : Option Row)

namespace Mismatch

/-- A row that may be absent, as messages show it. -/
def rowText : Option Row → String
  | some row => "Some(" ++ row.quoted ++ ")"
  | none => "None"

/-- The wording of a mismatch. -/
def message : Mismatch → String
  | .commands expected actual =>
    "Command mismatch: expected " ++ Text.quotedList expected ++ ", got " ++
      Text.quotedList actual
  | .notFound pattern actual =>
    "Expected a command containing '" ++ pattern ++ "', got " ++ Text.quotedList actual
  | .count pattern expected actual =>
    "Expected " ++ toString expected ++ " commands containing '" ++ pattern ++ "', found " ++
      toString actual
  | .cache id expected actual =>
    "Cache mismatch for " ++ id.full ++ ": expected " ++ rowText expected ++ ", got " ++
      rowText actual
  | .status id expected actual =>
    "Status mismatch for " ++ id.full ++ ": expected " ++ rowText expected ++ ", got " ++
      rowText actual

end Mismatch

namespace Verify

/-- The lines are exactly these. -/
def commands (lines expected : List String) : Except Mismatch Unit :=
  if lines = expected then .ok () else .error (.commands expected lines)

/-- The lines behind the first one that contains the pattern. -/
def behind? (pattern : String) : List String → Option (List String)
  | [] => none
  | line :: rest => if Text.occurs pattern line then some rest else behind? pattern rest

/-- The first pattern that is not found, each searched for behind the one before it. -/
def firstMissing? (lines : List String) : List String → Option String
  | [] => none
  | p :: ps =>
    match behind? p lines with
    | none => some p
    | some rest => firstMissing? rest ps

/-- The patterns are found one after another. -/
def inOrder (lines patterns : List String) : Except Mismatch Unit :=
  match firstMissing? lines patterns with
  | none => .ok ()
  | some p => .error (.notFound p lines)

/-- The pattern is found in so many lines. -/
def count (r : Recorder) (pattern : String) (expected : Nat) : Except Mismatch Unit :=
  if r.count pattern = expected then .ok () else .error (.count pattern expected (r.count pattern))

/-- The cached row of a key is this. -/
def cached (id : RowKey) (expected actual : Option Row) : Except Mismatch Unit :=
  if actual = expected then .ok () else .error (.cache id expected actual)

/-- The status row of a key is this. -/
def published (id : RowKey) (expected actual : Option Row) : Except Mismatch Unit :=
  if actual = expected then .ok () else .error (.status id expected actual)

end Verify

end Converge.Testkit
