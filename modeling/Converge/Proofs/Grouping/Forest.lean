import Converge.Executor.Grouping

/-!
# Roots of a forest

What the walks and the links of a `Forest` do is told through one function, the root of a row.

* `root` climbs from parent to parent; `root_le`: it never climbs to a later row;
* `root_point_of_root_eq`: pointing a row at an earlier row of its own tree moves no root. So
  **`root_find`**: a walk to the root halves the path and moves no root, and `find_eq` says that it
  ends at the root;
* **`root_union`**: after a link the later of the two roots is gone, the earlier one stands in its
  place, and nothing else has changed.
-/

namespace Converge.Grouping.Forest

variable {n : Nat}

/-! ## 1. Parents and roots -/

/-- The row that a row points at. -/
def up (f : Forest n) (i : Fin n) : Fin n :=
  ⟨f.parent[i], Nat.lt_of_le_of_lt (f.le_self i i.isLt) i.isLt⟩

theorem up_le (f : Forest n) (i : Fin n) : f.up i ≤ i := f.le_self i i.isLt

theorem up_lt {f : Forest n} {i : Fin n} (h : f.up i ≠ i) : f.up i < i :=
  Nat.lt_of_le_of_ne (f.up_le i) fun he => h (Fin.ext he)

/-- The first row above a row. -/
def root (f : Forest n) (i : Fin n) : Fin n := if f.up i = i then i else f.root (f.up i)
termination_by i.val
decreasing_by exact up_lt ‹_›

theorem root_of_up_eq {f : Forest n} {i : Fin n} (h : f.up i = i) : f.root i = i := by
  rw [root, if_pos h]

theorem root_up (f : Forest n) (i : Fin n) : f.root (f.up i) = f.root i := by
  by_cases h : f.up i = i
  · rw [h]
  · rw [root.eq_1 f i, if_neg h]

/-- **What holds of roots and passes from a parent to its children holds of every row.** -/
theorem climb {f : Forest n} {motive : Fin n → Prop} (hroot : ∀ i, f.up i = i → motive i)
    (hup : ∀ i, f.up i ≠ i → motive (f.up i) → motive i) (i : Fin n) : motive i :=
  if h : f.up i = i then hroot i h else hup i h (climb hroot hup (f.up i))
termination_by i.val
decreasing_by exact up_lt h

theorem up_root (f : Forest n) (i : Fin n) : f.up (f.root i) = f.root i := by
  induction i using climb (f := f) with
  | hroot i h => rw [root_of_up_eq h, h]
  | hup i h ih => rwa [root_up] at ih

theorem root_le (f : Forest n) (i : Fin n) : f.root i ≤ i := by
  induction i using climb (f := f) with
  | hroot i h => exact Nat.le_of_eq (congrArg Fin.val (root_of_up_eq h))
  | hup i h ih =>
    rw [root_up] at ih
    exact Nat.le_trans ih (f.up_le i)

@[simp] theorem root_singletons (i : Fin n) : (singletons n).root i = i := by
  refine root_of_up_eq (Fin.ext ?_)
  simp [up, singletons]

/-! ## 2. Pointing a row elsewhere -/

theorem up_point (f : Forest n) (i t : Fin n) (h : t ≤ i) (j : Fin n) :
    (f.point i t i.isLt h).up j = if j = i then t else f.up j := by
  refine Fin.ext ?_
  simp only [up, point, Fin.getElem_fin, Vector.getElem_set]
  by_cases hj : j = i
  · rw [if_pos (congrArg Fin.val hj.symm), if_pos hj]
  · rw [if_neg fun he => hj (Fin.ext he.symm), if_neg hj]

/-- **Pointing at an earlier row of the same tree moves no root.** -/
theorem root_point_of_root_eq {f : Forest n} {i t : Fin n} (hlt : t < i)
    (ht : f.root t = f.root i) (j : Fin n) :
    (f.point i t i.isLt (Nat.le_of_lt hlt)).root j = f.root j := by
  have hup := f.up_point i t (Nat.le_of_lt hlt)
  generalize f.point i t i.isLt (Nat.le_of_lt hlt) = g at hup
  induction j using climb (f := g) with
  | hroot j hj =>
    rw [root_of_up_eq hj]
    rw [hup] at hj
    by_cases hji : j = i
    · rw [if_pos hji, hji] at hj
      exact absurd hj (Fin.ne_of_lt hlt)
    · rw [if_neg hji] at hj
      exact (root_of_up_eq hj).symm
  | hup j hj ih =>
    rw [← root_up g j, ih, hup]
    by_cases hji : j = i
    · rw [if_pos hji, hji, ht]
    · rw [if_neg hji, root_up]

/-- **Linking a root below an earlier one puts the earlier one in its place.** -/
theorem root_point_of_roots {f : Forest n} {a b : Fin n} (hlt : b < a) (ha : f.up a = a)
    (hb : f.up b = b) (j : Fin n) :
    (f.point a b a.isLt (Nat.le_of_lt hlt)).root j = if f.root j = a then b else f.root j := by
  have hup := f.up_point a b (Nat.le_of_lt hlt)
  generalize f.point a b a.isLt (Nat.le_of_lt hlt) = g at hup
  have hgb : g.root b = b := root_of_up_eq (by rw [hup, if_neg (Fin.ne_of_lt hlt), hb])
  induction j using climb (f := f) with
  | hroot j hj =>
    rw [root_of_up_eq hj]
    by_cases hja : j = a
    · rw [if_pos hja, ← root_up g, hup, if_pos hja, hgb]
    · rw [if_neg hja]
      exact root_of_up_eq (by rw [hup, if_neg hja, hj])
  | hup j hj ih =>
    have hja : j ≠ a := fun h => hj (h ▸ ha)
    rw [root_up] at ih
    rw [← ih, ← root_up g j, hup, if_neg hja]

/-! ## 3. Walking to the root -/

/-- **A walk ends at the root and moves no root.** -/
theorem find_spec (f : Forest n) (i : Fin n) :
    (f.find i i.isLt).2.val = (f.root i).val ∧ ∀ j, (f.find i i.isLt).1.root j = f.root j := by
  rw [find]
  by_cases h : f.up i = i
  · have hp : f.parent[i.val] = i.val := congrArg Fin.val h
    rw [dif_pos hp, root_of_up_eq h]
    exact ⟨rfl, fun _ => rfl⟩
  · have hp : f.parent[i.val] ≠ i.val := fun he => h (Fin.ext he)
    have hlt : f.up (f.up i) < i := Nat.lt_of_le_of_lt (f.up_le _) (up_lt h)
    have hsame : f.root (f.up (f.up i)) = f.root i := by rw [root_up, root_up]
    have hpoint := root_point_of_root_eq hlt hsame
    obtain ⟨hend, hkept⟩ := find_spec (f.point i (f.up (f.up i)) i.isLt (Nat.le_of_lt hlt))
      (f.up (f.up i))
    rw [dif_neg hp]
    refine ⟨hend.trans ?_, fun j => (hkept j).trans (hpoint j)⟩
    rw [hpoint, hsame]
termination_by i.val
decreasing_by exact hlt

theorem find_eq (f : Forest n) (i : Fin n) : (f.find i i.isLt).2.val = (f.root i).val :=
  (f.find_spec i).1

theorem root_find (f : Forest n) (i j : Fin n) : (f.find i i.isLt).1.root j = f.root j :=
  (f.find_spec i).2 j

/-! ## 4. Putting two trees together -/

/-- **A union puts the earlier of two roots in the place of the later one.** -/
theorem root_union (f : Forest n) (i j : Fin n) :
    ∃ lo hi : Fin n, ((lo = f.root i ∧ hi = f.root j) ∨ (lo = f.root j ∧ hi = f.root i)) ∧
      ∀ k, (f.union i j i.isLt j.isLt).root k = if f.root k = hi then lo else f.root k := by
  -- both walks move no root, so the link sees the roots of `f`
  let g := (f.find i i.isLt).1
  let h := (g.find j j.isLt).1
  have hroot (k : Fin n) : h.root k = f.root k := by rw [g.root_find j, f.root_find i]
  have hup (k : Fin n) : h.up (f.root k) = f.root k := by rw [← hroot, up_root]
  have ha : (f.find i i.isLt).2.val = (f.root i).val := f.find_eq i
  have hb : (g.find j j.isLt).2.val = (f.root j).val := by rw [g.find_eq, f.root_find i]
  have hunion : f.union i j i.isLt j.isLt =
      if (f.root i).val = (f.root j).val then h
      else h.point (max (f.root i).val (f.root j).val) (min (f.root i).val (f.root j).val)
        (by omega) (by omega) := by
    unfold union
    simp only [← ha, ← hb]
    rfl
  rw [hunion]
  rcases Nat.lt_trichotomy (f.root i).val (f.root j).val with hlt | heq | hlt
  · refine ⟨f.root i, f.root j, .inl ⟨rfl, rfl⟩, fun k => ?_⟩
    rw [if_neg (Nat.ne_of_lt hlt)]
    simp only [Nat.max_eq_right (Nat.le_of_lt hlt), Nat.min_eq_left (Nat.le_of_lt hlt)]
    rw [root_point_of_roots hlt (hup j) (hup i), hroot]
  · refine ⟨f.root i, f.root j, .inl ⟨rfl, rfl⟩, fun k => ?_⟩
    rw [if_pos heq, hroot, Fin.ext heq]
    split
    · assumption
    · rfl
  · refine ⟨f.root j, f.root i, .inr ⟨rfl, rfl⟩, fun k => ?_⟩
    rw [if_neg (Nat.ne_of_gt hlt)]
    simp only [Nat.max_eq_left (Nat.le_of_lt hlt), Nat.min_eq_right (Nat.le_of_lt hlt)]
    rw [root_point_of_roots hlt (hup i) (hup j), hroot]

/-- **A union merges exactly the two trees.** -/
theorem root_union_eq_iff (f : Forest n) (i j k l : Fin n) :
    (f.union i j i.isLt j.isLt).root k = (f.union i j i.isLt j.isLt).root l ↔
      f.root k = f.root l ∨ (f.root k = f.root i ∧ f.root l = f.root j) ∨
        (f.root k = f.root j ∧ f.root l = f.root i) := by
  obtain ⟨lo, hi, hcase, hunion⟩ := f.root_union i j
  rw [hunion, hunion]
  rcases hcase with ⟨rfl, rfl⟩ | ⟨rfl, rfl⟩
  · grind
  · grind

end Converge.Grouping.Forest
