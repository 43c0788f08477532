import Converge.SortedMap

/-!
# Grouping by shared resources

Rows whose actions touch a common resource must not run at the same time. `groupByResource` takes
the resources of each row and puts the rows into groups: two rows share a group if a chain of rows
leads from one to the other in which neighbours share a resource.

* `Forest` is the usual forest of parents: every row points at a row that is not later (`le_self`),
  so a walk to the root ends;
* `Forest.find` walks to the root and halves the path on the way;
* `Forest.union` links two roots, the later one below the earlier one, so the root of a group is
  its first row.
-/

namespace Converge.Grouping

/-! ## 1. The forest -/

/-- Each of `n` rows points at a row that is not later; a root points at itself. -/
structure Forest (n : Nat) where
  parent : Vector Nat n
  le_self : ∀ (i : Nat) (h : i < n), parent[i] ≤ i

namespace Forest

variable {n : Nat}

/-- Every row is a root. -/
def singletons (n : Nat) : Forest n := ⟨.ofFn fun i => i.val, by simp⟩

/-- Lets a row point at a row that is not later. -/
def point (f : Forest n) (i target : Nat) (hi : i < n) (ht : target ≤ i) : Forest n where
  parent := f.parent.set i target
  le_self j hj := by
    rw [Vector.getElem_set]
    split
    · rename_i h
      omega
    · exact f.le_self j hj

/-- The root above a row, and the forest after the walk: every second row on the way points at
    its former grandparent. -/
def find (f : Forest n) (i : Nat) (hi : i < n) : Forest n × { r : Nat // r ≤ i } :=
  let p := f.parent[i]
  have hp : p ≤ i := f.le_self i hi
  if hne : p = i then (f, ⟨i, Nat.le_refl i⟩)
  else
    have hpn : p < n := by omega
    let g := f.parent[p]
    have hg : g ≤ p := f.le_self p hpn
    let (f', r) := (f.point i g hi (by omega)).find g (by omega)
    (f', ⟨r.val, by have := r.property; omega⟩)
termination_by i
decreasing_by exact Nat.lt_of_le_of_lt hg (Nat.lt_of_le_of_ne hp hne)

/-- Puts the groups of two rows together. -/
def union (f : Forest n) (i j : Nat) (hi : i < n) (hj : j < n) : Forest n :=
  let (f, a) := f.find i hi
  let (f, b) := f.find j hj
  have ha : a.val < n := by have := a.property; omega
  have hb : b.val < n := by have := b.property; omega
  if a.val = b.val then f
  else f.point (max a.val b.val) (min a.val b.val) (by omega) (by omega)

end Forest

/-! ## 2. Groups -/

/-- The forest, and for each resource the first row that touches it. -/
structure Progress (n : Nat) where
  forest : Forest n
  owner : SortedMap String (Fin n)

/-- A row touches a resource. -/
def touch {n : Nat} (i : Fin n) (p : Progress n) (resource : String) : Progress n :=
  match p.owner.get? resource with
  | some j => { p with forest := p.forest.union i j i.isLt j.isLt }
  | none => { p with owner := p.owner.insert resource i }

/-- The forest after every row has touched its resources, rows in order. -/
def link (resources : List (List String)) : Progress resources.length :=
  (List.finRange resources.length).foldl
    (fun p i => (resources[i]).foldl (touch i) p)
    ⟨.singletons _, .empty⟩

/-- Adds a row to the group of its root. -/
def place {n : Nat} (acc : Forest n × SortedMap Nat (List Nat)) (i : Fin n) :
    Forest n × SortedMap Nat (List Nat) :=
  let (f, root) := acc.1.find i i.isLt
  (f, acc.2.insert root.val ((acc.2.get? root.val).getD [] ++ [i.val]))

/-- The groups of rows that share resources: rows in order within a group, groups in the order of
    their first rows. -/
def groupByResource (resources : List (List String)) : List (List Nat) :=
  ((List.finRange resources.length).foldl place
    ((link resources).forest, SortedMap.empty)).2.entries.map (·.2)

end Converge.Grouping
