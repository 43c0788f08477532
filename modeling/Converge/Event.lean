import Converge.Row
import Converge.Error

/-!
# Change events

An event says that a row was set or deleted. Stores send it as a list of texts: the key, the name
of the operation and then field names and values in turn.

* `Operation.ofName?` reads the names `SET`, `set`, `hset`, `DEL` and `del`;
* `ChangeEvent.ofFields` reads a list, `ChangeEvent.toFields` writes one.
-/

namespace Converge

/-! ## 1. Operations -/

/-- What happened to a row. -/
inductive Operation where
  /-- The row was created or replaced. -/
  | set
  /-- The row was deleted. -/
  | del
deriving DecidableEq, Repr

namespace Operation

/-- The name that is sent. -/
def name : Operation → String
  | .set => "SET"
  | .del => "DEL"

/-- Reads a name. -/
def ofName? : String → Option Operation
  | "SET" | "set" | "hset" => some .set
  | "DEL" | "del" => some .del
  | _ => none

theorem ofName?_name (op : Operation) : ofName? op.name = some op := by cases op <;> rfl

end Operation

/-! ## 2. Events -/

/-- A row was set or deleted. -/
structure ChangeEvent where
  id : RowKey
  op : Operation
  /-- The whole row after a `set`; a plain `del` has the empty row. -/
  row : Row
deriving DecidableEq

namespace ChangeEvent

def set (id : RowKey) (row : Row) : ChangeEvent := ⟨id, .set, row⟩

def del (id : RowKey) : ChangeEvent := ⟨id, .del, .empty⟩

/-- The row that is there after the event; the empty row counts as none. -/
def leaves (e : ChangeEvent) : Option Row :=
  match e.op with
  | .set => if e.row.isEmpty then none else some e.row
  | .del => none

theorem leaves_set {id : RowKey} {row : Row} (h : row.isEmpty = false) :
    (set id row).leaves = some row := by
  simp [leaves, set, h]

@[simp] theorem leaves_del (id : RowKey) : (del id).leaves = none := rfl

/-- The list taken two by two; nothing if one is left over. -/
def pairUp? : List String → Option (List (String × String))
  | [] => some []
  | [_] => none
  | f :: v :: rest => (pairUp? rest).map ((f, v) :: ·)

/-- Reads a list. Of several values of one field the last counts, and the fields behind a `del`
    do not count at all. -/
def ofFields (table : String) : List String → Except Error ChangeEvent
  | [] => .error (.malformedEvent table "missing key")
  | [key] => .error (.malformedEvent table ("missing op for " ++ key))
  | key :: name :: rest =>
    match Operation.ofName? name with
    | none => .error (.malformedEvent table ("unknown op '" ++ name ++ "' for " ++ key))
    | some op =>
      match pairUp? rest with
      | none => .error (.malformedEvent table ("odd field/value count for " ++ key))
      | some pairs =>
        .ok ⟨⟨table, key⟩, op, match op with
          | .set => .ofList pairs
          | .del => .empty⟩

/-- Writes an event as a list. -/
def toFields (e : ChangeEvent) : List String :=
  e.id.key :: e.op.name :: e.row.entries.flatMap fun (f, v) => [f, v]

end ChangeEvent

end Converge
