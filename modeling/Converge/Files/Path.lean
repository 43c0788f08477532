import Converge.Text.Search

/-!
# Paths

A path is a text. Between its separators stand segments; a segment counts as a component unless it
is empty or a single point, except that a point at the very front of a relative path counts.

* `fileName?`: the last component, unless it is a point or two;
* `parent?`: the text up to the component before the last;
* `join`: an absolute operand takes the place of the base, and two points are kept;
* `same`: equality by components.
-/

namespace Converge.Path

/-- The parts between separators. -/
def segments (p : String) : List String :=
  (Text.splitAllChars '/' p.toList).map String.ofList

def isAbsolute (p : String) : Bool := p.toList.head? == some '/'

/-- The segment at a place counts as a component. -/
def counts (place : Nat) (segment : String) : Bool :=
  !segment.isEmpty && (segment != "." || place == 0)

/-- The components with their places among the segments. -/
def placed (p : String) : List (Nat × String) :=
  (segments p).zipIdx.filterMap fun (s, i) => if counts i s then some (i, s) else none

/-- The components. -/
def components (p : String) : List String := (placed p).map (·.2)

/-- The last component, unless it is a point or two. -/
def fileName? (p : String) : Option String :=
  match (components p).getLast? with
  | some name => if name == "." || name == ".." then none else some name
  | none => none

/-- The path without its last component; nothing if it has none. -/
def parent? (p : String) : Option String :=
  match (placed p).reverse with
  | [] => none
  | [_] => some (if isAbsolute p then "/" else "")
  | _ :: (i, _) :: _ => some ("/".intercalate ((segments p).take (i + 1)))

/-- The path `p` seen from `base`. -/
def join (base p : String) : String :=
  if isAbsolute p then p
  else if base.isEmpty || base.toList.getLast? == some '/' then base ++ p
  else base ++ "/" ++ p

/-- The paths have the same components. -/
def same (p q : String) : Bool := isAbsolute p == isAbsolute q && components p == components q

end Converge.Path
