import Converge.Toml.Value

/-!
# Putting a file together

A file is a list of sections: the entries before the first header, and then each header with the
entries behind it. An entry has a path of names: all but the last name tables inside the table of
its section.

`assemble?` puts the sections together and refuses what defines a name twice:

* a header may name a table once, but a table that was only walked through by a longer header may
  still get a header of its own;
* a path of an entry may go on inside tables that paths of entries of the same section made;
* the header of an element adds a table to a list of tables, and a later header that walks through
  the list means its last table.
-/

namespace Converge.Toml

/-! ## 1. Sections -/

/-- What the entries of a section belong to. -/
inductive Header where
  /-- The file itself. -/
  | top
  /-- A table. -/
  | table (path : List String)
  /-- A new element of a list of tables. -/
  | element (path : List String)
deriving DecidableEq, Repr

/-- A header and the entries behind it. -/
structure Section where
  header : Header
  entries : List (List String × Value)

/-! ## 2. Tables while they are put together -/

/-- How a table came about. -/
inductive Origin where
  /-- It has a header. -/
  | header
  /-- A longer header walked through it. -/
  | passed
  /-- The path of an entry made it. -/
  | path
deriving DecidableEq, Repr

/-- What a name stands for while a file is put together. -/
inductive Node where
  | value (v : Value)
  | table (origin : Origin) (entries : List (String × Node))
  /-- A list of tables, the last one first. -/
  | tables (elements : List (List (String × Node)))

abbrev Nodes := List (String × Node)

namespace Nodes

def get? (ns : Nodes) (name : String) : Option Node :=
  (ns.find? fun e => e.1 == name).map (·.2)

/-- The named nodes with another node for a name that is there. -/
def replace (ns : Nodes) (name : String) (n : Node) : Nodes :=
  ns.map fun e => if e.1 == name then (name, n) else e

/-- The named nodes with one more. -/
def add (ns : Nodes) (name : String) (n : Node) : Nodes := ns ++ [(name, n)]

/-- Puts a value at the end of the path of an entry. -/
def put? : List String → Value → Nodes → Option Nodes
  | [], _, _ => none
  | [name], v, ns => if (ns.get? name).isSome then none else some (ns.add name (.value v))
  | name :: rest, v, ns =>
    match ns.get? name with
    | none => (put? rest v []).map fun t => ns.add name (.table .path t)
    | some (.table .path t) => (put? rest v t).map fun t => ns.replace name (.table .path t)
    | some (.table .passed t) =>
      if rest.length == 1 then none
      else (put? rest v t).map fun t => ns.replace name (.table .passed t)
    | some _ => none

/-- Puts the values of the entries of a section at the ends of their paths. -/
def putAll? (ns : Nodes) : List (List String × Value) → Option Nodes
  | [] => some ns
  | (path, v) :: rest => (put? path v ns).bind fun ns => ns.putAll? rest

/-- Changes what a path of a header leads to: all but the last name are walked through, and `last`
    changes what the last name stands for. -/
def walk? (last : String → Nodes → Option Nodes) : List String → Nodes → Option Nodes
  | [], _ => none
  | [name], ns => last name ns
  | name :: rest, ns =>
    match ns.get? name with
    | none => (walk? last rest []).map fun t => ns.add name (.table .passed t)
    | some (.table o t) => (walk? last rest t).map fun t => ns.replace name (.table o t)
    | some (.tables (t :: ts)) =>
      (walk? last rest t).map fun t => ns.replace name (.tables (t :: ts))
    | some _ => none

/-- Gives a name the table of a header. -/
def openTable? (entries : List (List String × Value)) (name : String) (ns : Nodes) :
    Option Nodes :=
  match ns.get? name with
  | none => (putAll? [] entries).map fun t => ns.add name (.table .header t)
  | some (.table .passed t) =>
    (putAll? t entries).map fun t => ns.replace name (.table .header t)
  | some _ => none

/-- Adds a table to the list of tables of a name. -/
def openElement? (entries : List (List String × Value)) (name : String) (ns : Nodes) :
    Option Nodes :=
  match ns.get? name with
  | none => (putAll? [] entries).map fun t => ns.add name (.tables [t])
  | some (.tables ts) => (putAll? [] entries).map fun t => ns.replace name (.tables (t :: ts))
  | some _ => none

/-- Adds a section. -/
def addSection? (ns : Nodes) (s : Section) : Option Nodes :=
  match s.header with
  | .top => ns.putAll? s.entries
  | .table path => walk? (openTable? s.entries) path ns
  | .element path => walk? (openElement? s.entries) path ns

end Nodes

/-! ## 3. The whole -/

mutual

/-- The value of a node. -/
def Node.toValue : Node → Value
  | .value v => v
  | .table _ entries => .table (entriesOf entries)
  | .tables elements => .arr (tablesOf elements [])

/-- The values of named nodes. -/
def entriesOf : List (String × Node) → List (String × Value)
  | [] => []
  | (name, n) :: rest => (name, n.toValue) :: entriesOf rest

/-- The values of tables, the last one first, before the given values. -/
def tablesOf : List (List (String × Node)) → List Value → List Value
  | [], done => done
  | t :: rest, done => tablesOf rest (.table (entriesOf t) :: done)

end

/-- Adds sections in order. -/
def addSections? (ns : Nodes) : List Section → Option Nodes
  | [] => some ns
  | s :: rest => (ns.addSection? s).bind fun ns => addSections? ns rest

/-- **The table of a whole file.** -/
def assemble? (sections : List Section) : Option Entries :=
  (addSections? [] sections).map entriesOf

/-- The table of entries inside braces. -/
def tableOf? (entries : List (List String × Value)) : Option Value :=
  (Nodes.putAll? [] entries).map fun ns => .table (entriesOf ns)

end Converge.Toml
