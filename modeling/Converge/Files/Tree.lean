import Converge.Files.Path
import Converge.IoFault
import Converge.SortedMap
import Converge.Text.Lossy

/-!
# File trees

A tree of directories and regular files, without links. The key of a node is its full path from
the root, `/a/b`; the root itself, with the empty key, is always there.

Operations are those of the system and fail with its numbers. A path is walked part by part
(`walk`): a missing part, a file in the place of a directory and a part longer than 255 bytes are
different faults, and the first one met wins. A path that does not begin at the root is walked
from the root as well.
-/

namespace Converge.Files

/-! ## 1. Trees -/

/-- What can be at a path. -/
inductive Node where
  | dir
  | file (content : List UInt8)
deriving DecidableEq

/-- The nodes below the root. -/
structure Tree where
  nodes : SortedMap String Node
deriving DecidableEq

namespace Tree

def empty : Tree := ⟨.empty⟩

instance : Inhabited Tree := ⟨empty⟩

/-- The node of a key. -/
def node? (t : Tree) (key : String) : Option Node :=
  if key.isEmpty then some .dir else t.nodes.get? key

/-- The key of a name in a directory. -/
def keyIn (dir name : String) : String := dir ++ "/" ++ name

/-- The key of the directory that holds a node; the root holds itself. -/
def above (key : String) : String :=
  "/".intercalate ((Path.segments key).dropLast)

def isDirKey (t : Tree) (key : String) : Bool := t.node? key = some .dir

def put (t : Tree) (key : String) (n : Node) : Tree := ⟨t.nodes.insert key n⟩

def drop (t : Tree) (key : String) : Tree := ⟨t.nodes.erase key⟩

/-! ## 2. Walking a path -/

/-- The last part of a path. -/
inductive Last where
  /-- A name in the directory. -/
  | name (name : String)
  /-- One or two points, or the root: the directory with this key. -/
  | dots (key : String)

/-- Where a path leads: the directory that was walked to, the last part, and whether a separator
    stands behind it. -/
structure Place where
  dir : String
  last : Last
  trailing : Bool

/-- The greatest number of bytes in a part, and in a path. -/
def maxName : Nat := 255
def maxPath : Nat := 4095

/-- Steps into a part of a path. -/
def enter (t : Tree) (dir part : String) : Except IoFault String :=
  if part == "." then .ok dir
  else if part == ".." then .ok (above dir)
  else if maxName < part.utf8ByteSize then .error .nameTooLong
  else
    match t.node? (keyIn dir part) with
    | none => .error .noEntry
    | some .dir => .ok (keyIn dir part)
    | some (.file _) => .error .notDirectory

/-- Steps into all parts but the last. -/
def walkParts (t : Tree) (dir : String) : List String → Except IoFault (String × Option String)
  | [] => .ok (dir, none)
  | [last] => .ok (dir, some last)
  | part :: rest =>
    match t.enter dir part with
    | .error e => .error e
    | .ok dir => t.walkParts dir rest

/-- Walks a path up to its last part. -/
def walk (t : Tree) (path : String) : Except IoFault Place :=
  if path.toList.contains '\x00' then .error .nulInPath
  else if path.isEmpty then .error .noEntry
  else if maxPath < path.utf8ByteSize then .error .nameTooLong
  else
    let parts := (Path.segments path).filter fun s => !s.isEmpty
    let trailing := path.toList.getLast? == some '/'
    match t.walkParts "" parts with
    | .error e => .error e
    | .ok (dir, none) => .ok ⟨dir, .dots dir, trailing⟩
    | .ok (dir, some last) =>
      if last == "." then .ok ⟨dir, .dots dir, trailing⟩
      else if last == ".." then .ok ⟨dir, .dots (above dir), trailing⟩
      else if maxName < last.utf8ByteSize then .error .nameTooLong
      else .ok ⟨dir, .name last, trailing⟩

/-! ## 3. Operations of the system -/

/-- There is a directory at the path. -/
def isDir (t : Tree) (path : String) : Bool :=
  match t.walk path with
  | .error _ => false
  | .ok ⟨_, .dots _, _⟩ => true
  | .ok ⟨dir, .name n, _⟩ => t.isDirKey (keyIn dir n)

/-- Makes a directory. -/
def makeDir (t : Tree) (path : String) : Except IoFault Tree :=
  match t.walk path with
  | .error e => .error e
  | .ok ⟨_, .dots _, _⟩ => .error .nameTaken
  | .ok ⟨dir, .name n, _⟩ =>
    match t.node? (keyIn dir n) with
    | some _ => .error .nameTaken
    | none => .ok (t.put (keyIn dir n) .dir)

/-- Makes or overwrites a file. -/
def write (t : Tree) (path : String) (content : List UInt8) : Except IoFault Tree :=
  match t.walk path with
  | .error e => .error e
  | .ok ⟨_, .dots _, _⟩ => .error .isDirectory
  | .ok ⟨_, .name _, true⟩ => .error .isDirectory
  | .ok ⟨dir, .name n, false⟩ =>
    match t.node? (keyIn dir n) with
    | some .dir => .error .isDirectory
    | _ => .ok (t.put (keyIn dir n) (.file content))

/-- The bytes of a file. -/
def read (t : Tree) (path : String) : Except IoFault (List UInt8) :=
  match t.walk path with
  | .error e => .error e
  | .ok ⟨_, .dots _, _⟩ => .error .isDirectory
  | .ok ⟨dir, .name n, trailing⟩ =>
    match t.node? (keyIn dir n) with
    | none => .error .noEntry
    | some .dir => .error .isDirectory
    | some (.file content) => if trailing then .error .notDirectory else .ok content

/-- The text of a file. -/
def readText (t : Tree) (path : String) : Except IoFault String :=
  match t.read path with
  | .error e => .error e
  | .ok bytes =>
    match Text.decodeStrict? bytes with
    | some s => .ok s
    | none => .error .notText

/-- Removes a file. -/
def unlink (t : Tree) (path : String) : Except IoFault Tree :=
  match t.walk path with
  | .error e => .error e
  | .ok ⟨_, .dots _, _⟩ => .error .isDirectory
  | .ok ⟨dir, .name n, trailing⟩ =>
    match t.node? (keyIn dir n) with
    | none => .error .noEntry
    | some .dir => .error .isDirectory
    | some (.file _) => if trailing then .error .notDirectory else .ok (t.drop (keyIn dir n))

/-- Moves a file to another path, in place of a file that is there. -/
def rename (t : Tree) (source target : String) : Except IoFault Tree :=
  match t.walk source, t.walk target with
  | .error e, _ => .error e
  | _, .error e => .error e
  | .ok ⟨_, .dots _, _⟩, _ => .error .busy
  | _, .ok ⟨_, .dots _, _⟩ => .error .busy
  | .ok ⟨dir, .name n, _⟩, .ok ⟨dir', .name n', trailing⟩ =>
    match t.node? (keyIn dir n) with
    | none => .error .noEntry
    | some .dir => .error .isDirectory
    | some (.file content) =>
      if trailing then .error .notDirectory
      else
        match t.node? (keyIn dir' n') with
        | some .dir => .error .isDirectory
        | _ => .ok ((t.drop (keyIn dir n)).put (keyIn dir' n') (.file content))

/-! ## 4. Looking at a tree -/

/-- The key of a path that leads somewhere. -/
def keyOf? (t : Tree) (path : String) : Option String :=
  match t.walk path with
  | .error _ => none
  | .ok ⟨_, .dots key, _⟩ => some key
  | .ok ⟨dir, .name n, _⟩ => if (t.node? (keyIn dir n)).isSome then some (keyIn dir n) else none

/-- Everything below a path, with the rest of the key behind it. -/
def below (t : Tree) (path : String) : List (String × Node) :=
  match t.keyOf? path with
  | none => []
  | some key =>
    let front := (key ++ "/").toList
    t.nodes.entries.filterMap fun (k, n) =>
      if front.isPrefixOf k.toList then some (String.ofList (k.toList.drop (front.length - 1)), n)
      else none

end Tree

end Converge.Files
