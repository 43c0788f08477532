import Mathlib.Logic.Relation
import Mathlib.Order.Bounds.Basic
import Converge.Proofs.Grouping.Forest

/-!
# Walks over plain parents

A `Forest` cannot hold a parent that is a later row or no row at all, and its walks end by their type.
Here the parents are plain numbers: a walk may read a place that there is not, it may go round for ever,
and nothing says what its strides do to the classes of the rows.

* `Parents`, `stride`, `Walk`: the parents, one round of the walk to a root, and so many of them;
* `Class`: the rows that steps between rows and their parents connect;
* `exists_plain_iff`: the parents of forests are those in which no row has a later parent;
* `class_plain_iff`: the classes of such parents are the trees, and `isLeast_base`: the root of a tree is its
  smallest row;
* `stride_cases`, **`walk_stays`**, **`walk_find`**: what one round does, what holds all the way along a
  walk, and where it ends;
* **`sound_iff`**: all that is asked of parents, `Sound`, holds if no row has a later parent.
-/

namespace Converge.Grouping

/-! ## 1. Parents as plain numbers -/

/-- The parent of each row as a plain number. -/
abbrev Parents := List Nat

/-- One round of the walk to a root. -/
inductive Stride where
  /-- The row is its own parent. -/
  | home
  /-- The row points at its former grandparent, and the walk has come there. -/
  | on (parents : Parents) (row : Nat)
  /-- A place was read that there is not. -/
  | astray

namespace Parents

/-- The round of a walk that has come to a row. -/
def stride (ps : Parents) (i : Nat) : Stride :=
  match ps[i]? with
  | none => .astray
  | some p =>
    if p = i then .home
    else
      match ps[p]? with
      | none => .astray
      | some g => .on (ps.set i g) g

/-- A walk that began at a row has come to another after so many rounds, and the parents to others. -/
inductive Walk (ps : Parents) (i : Nat) : Nat → Parents → Nat → Prop where
  | start : Walk ps i 0 ps i
  | round {m : Nat} {ps' ps'' : Parents} {j k : Nat} (h : Walk ps i m ps' j)
      (hstride : ps'.stride j = .on ps'' k) : Walk ps i (m + 1) ps'' k

/-- The later of two roots points at the earlier one. -/
def join (ps : Parents) (a b : Nat) : Parents := ps.set (max a b) (min a b)

/-- Steps between rows and their parents lead from one row to the other. -/
def Class (ps : Parents) : Nat → Nat → Prop := Relation.EqvGen fun i j => ps[i]? = some j

/-- What is asked of the parents of so many rows. -/
structure Sound (n : Nat) (ps : Parents) : Prop where
  length_eq : ps.length = n
  /-- No row has a later parent. -/
  not_later : ∀ i p : Nat, ps[i]? = some p → p ≤ i
  /-- A walk reads and writes no place that there is not, and there are no more rounds than rows in front
      of the one that it began at. -/
  stays : ∀ i < n, ∀ m ps' j, Walk ps i m ps' j → ps'.stride j ≠ .astray ∧ m + j ≤ i
  /-- It changes no class, however far it has come. -/
  same : ∀ i < n, ∀ m ps' j, Walk ps i m ps' j → ∀ k l, ps'.Class k l ↔ ps.Class k l
  /-- It ends. -/
  ends : ∀ i < n, ∃ m ps' r, Walk ps i m ps' r ∧ ps'.stride r = .home
  /-- Where it ends is the smallest row of the class. -/
  least : ∀ i < n, ∀ m ps' r, Walk ps i m ps' r → ps'.stride r = .home →
    IsLeast {k | ps.Class i k} r
  /-- Joining two roots puts their classes together, and no others. -/
  merges : ∀ a b : Nat, ps[a]? = some a → ps[b]? = some b → a ≠ b → ∀ k l,
    (ps.join a b).Class k l ↔ ps.Class k l ∨
      (ps.Class k a ∧ ps.Class l b) ∨ (ps.Class k b ∧ ps.Class l a)

theorem Walk.cons {ps ps₁ ps' : Parents} {i j k m : Nat} (hstride : ps.stride i = .on ps₁ j)
    (h : Walk ps₁ j m ps' k) : Walk ps i (m + 1) ps' k := by
  induction h with
  | start => exact .round .start hstride
  | round _ hlast ih => exact .round ih hlast

end Parents

namespace Forest

variable {n : Nat}

/-! ## 2. The parents of a forest -/

/-- The parents of a forest. -/
def plain (f : Forest n) : Parents := f.parent.toList

@[simp] theorem length_plain (f : Forest n) : f.plain.length = n := f.parent.length_toList

theorem plain_get? (f : Forest n) (i : Fin n) : f.plain[i.val]? = some (f.up i).val := by
  have hlt : i.val < f.plain.length := by
    rw [length_plain]
    exact i.isLt
  rw [List.getElem?_eq_getElem hlt]
  rfl

theorem plain_eq_some {f : Forest n} {i p : Nat} (h : f.plain[i]? = some p) :
    ∃ hi : i < n, (f.up ⟨i, hi⟩).val = p := by
  have hi : i < n := by
    have hlt := (List.getElem?_eq_some_iff.mp h).1
    rwa [length_plain] at hlt
  refine ⟨hi, ?_⟩
  rw [f.plain_get? ⟨i, hi⟩] at h
  exact Option.some.inj h

theorem plain_point (f : Forest n) (i t : Nat) (hi : i < n) (ht : t ≤ i) :
    (f.point i t hi ht).plain = f.plain.set i t := Vector.toList_set hi

theorem plain_singletons (n : Nat) : (singletons n).plain = List.range n := by
  refine List.ext_getElem (by simp) ?_
  intro i hi _
  simp [plain, singletons]

/-- **The parents of forests are those in which no row has a later parent.** -/
theorem exists_plain_iff {ps : Parents} :
    (∃ f : Forest n, f.plain = ps) ↔ ps.length = n ∧ ∀ i p : Nat, ps[i]? = some p → p ≤ i := by
  constructor
  · rintro ⟨f, rfl⟩
    refine ⟨f.length_plain, ?_⟩
    intro i p h
    obtain ⟨hi, rfl⟩ := plain_eq_some h
    exact f.up_le ⟨i, hi⟩
  · rintro ⟨rfl, hle⟩
    refine ⟨⟨⟨ps.toArray, rfl⟩, ?_⟩, rfl⟩
    intro i hi
    exact hle i _ (List.getElem?_eq_getElem hi)

/-! ## 3. Classes -/

/-- The root above a number; one that is no row is its own. -/
def base (f : Forest n) (k : Nat) : Nat := if h : k < n then (f.root ⟨k, h⟩).val else k

theorem base_fin (f : Forest n) (i : Fin n) : f.base i = (f.root i).val := dif_pos i.isLt

theorem base_le (f : Forest n) (k : Nat) : f.base k ≤ k := by
  by_cases h : k < n
  · rw [f.base_fin ⟨k, h⟩]
    exact f.root_le ⟨k, h⟩
  · rw [base, dif_neg h]

/-- Forests with the same roots have the same bases. -/
theorem base_congr {f g : Forest n} (h : ∀ i, g.root i = f.root i) (k : Nat) : g.base k = f.base k := by
  by_cases hk : k < n
  · rw [g.base_fin ⟨k, hk⟩, f.base_fin ⟨k, hk⟩, h]
  · rw [base, dif_neg hk, base, dif_neg hk]

theorem class_base (f : Forest n) (k : Nat) : f.plain.Class k (f.base k) := by
  by_cases hk : k < n
  · rw [f.base_fin ⟨k, hk⟩]
    have hclimb : ∀ i : Fin n, f.plain.Class i (f.root i) := by
      intro i
      induction i using climb (f := f) with
      | hroot i h =>
        rw [root_of_up_eq h]
        exact .refl _
      | hup i _ ih =>
        rw [root_up] at ih
        exact .trans _ _ _ (.rel _ _ (f.plain_get? i)) ih
    exact hclimb ⟨k, hk⟩
  · rw [base, dif_neg hk]
    exact .refl _

/-- **The classes are the trees.** -/
theorem class_plain_iff (f : Forest n) (k l : Nat) : f.plain.Class k l ↔ f.base k = f.base l := by
  constructor
  · intro h
    induction h with
    | rel i p hp =>
      obtain ⟨hi, rfl⟩ := plain_eq_some hp
      rw [f.base_fin ⟨i, hi⟩, base_fin, root_up]
    | refl => rfl
    | symm _ _ _ ih => exact ih.symm
    | trans _ _ _ _ _ ih ih' => exact ih.trans ih'
  · intro h
    have hl : f.plain.Class (f.base k) l := by
      rw [h]
      exact .symm _ _ (f.class_base l)
    exact .trans _ _ _ (f.class_base k) hl

theorem class_congr {f g : Forest n} (h : ∀ i, g.root i = f.root i) (k l : Nat) :
    g.plain.Class k l ↔ f.plain.Class k l := by
  rw [class_plain_iff, class_plain_iff, base_congr h, base_congr h]

/-- The root of a tree is its smallest row. -/
theorem isLeast_base (f : Forest n) (k : Nat) : IsLeast {l | f.plain.Class k l} (f.base k) := by
  constructor
  · exact f.class_base k
  · intro l hl
    rw [(f.class_plain_iff k l).mp hl]
    exact f.base_le l

/-! ## 4. Walks -/

theorem stride_of_root {f : Forest n} {i : Fin n} (h : f.up i = i) : f.plain.stride i = .home := by
  unfold Parents.stride
  rw [f.plain_get? i, h]
  exact if_pos rfl

theorem stride_of_up_ne {f : Forest n} {i : Fin n} (h : f.up i ≠ i) :
    f.plain.stride i = .on (f.point i (f.up (f.up i)) i.isLt
      (Nat.le_trans (f.up_le _) (f.up_le i))).plain (f.up (f.up i)) := by
  have hne : (f.up i).val ≠ i.val := fun he => h (Fin.ext he)
  unfold Parents.stride
  rw [f.plain_get? i]
  dsimp only
  rw [if_neg hne, f.plain_get? (f.up i), plain_point]

/-- **A round ends at a root or goes on to an earlier row of the tree.** It moves no root, and roots stay
    roots. -/
theorem stride_cases (f : Forest n) (i : Fin n) :
    (f.up i = i ∧ f.plain.stride i = .home) ∨
      ∃ (g : Forest n) (t : Fin n), f.plain.stride i = .on g.plain t ∧ t < i ∧
        f.root t = f.root i ∧ (∀ k, g.root k = f.root k) ∧ ∀ k, f.up k = k → g.up k = k := by
  by_cases h : f.up i = i
  · exact .inl ⟨h, stride_of_root h⟩
  · have hlt : f.up (f.up i) < i := Nat.lt_of_le_of_lt (f.up_le _) (up_lt h)
    have hsame : f.root (f.up (f.up i)) = f.root i := by rw [root_up, root_up]
    refine .inr ⟨_, _, stride_of_up_ne h, hlt, hsame, root_point_of_root_eq hlt hsame, ?_⟩
    intro k hk
    have hki : k ≠ i := fun he => h (he ▸ hk)
    rw [up_point, if_neg hki, hk]

/-- **All the way along a walk** the parents are those of a forest with the same roots, and the walk is in
    the tree that it began in. -/
theorem walk_stays {f : Forest n} (i : Fin n) {m : Nat} {ps : Parents} {j : Nat}
    (h : f.plain.Walk i m ps j) : ∃ (g : Forest n) (hj : j < n), ps = g.plain ∧ m + j ≤ i ∧
      (∀ k, g.root k = f.root k) ∧ f.root ⟨j, hj⟩ = f.root i := by
  induction h with
  | start => exact ⟨f, i.isLt, rfl, by omega, fun _ => rfl, rfl⟩
  | @round m _ _ j _ _ hstride ih =>
    obtain ⟨g, hj, rfl, hle, hroots, htree⟩ := ih
    obtain ⟨-, hhome⟩ | ⟨g', t, hon, hlt, htree', hroots', -⟩ := g.stride_cases ⟨j, hj⟩
    · rw [hhome] at hstride
      cases hstride
    · rw [hon] at hstride
      cases hstride
      have hval : t.val < j := hlt
      refine ⟨g', t.isLt, rfl, by omega, ?_, ?_⟩
      · intro k
        rw [hroots', hroots]
      · rw [← hroots, htree', hroots, htree]

/-- **A walk ends where a forest's walk ends**, with the same parents. -/
theorem walk_find (f : Forest n) (i : Fin n) : ∃ m, f.plain.Walk i m (f.find i i.isLt).1.plain
    (f.find i i.isLt).2.val := by
  rw [find]
  by_cases h : f.up i = i
  · have hp : f.parent[i.val] = i.val := congrArg Fin.val h
    rw [dif_pos hp]
    exact ⟨0, .start⟩
  · have hp : f.parent[i.val] ≠ i.val := fun he => h (Fin.ext he)
    have hlt : f.up (f.up i) < i := Nat.lt_of_le_of_lt (f.up_le _) (up_lt h)
    obtain ⟨m, hwalk⟩ := walk_find (f.point i (f.up (f.up i)) i.isLt (Nat.le_of_lt hlt))
      (f.up (f.up i))
    rw [dif_neg hp]
    exact ⟨m + 1, .cons (stride_of_up_ne h) hwalk⟩
termination_by i.val
decreasing_by exact hlt

theorem stride_find (f : Forest n) (i : Fin n) :
    (f.find i i.isLt).1.plain.stride (f.find i i.isLt).2.val = .home := by
  have hroot : (f.find i i.isLt).1.root i = f.root i := f.root_find i i
  rw [find_eq, ← hroot]
  exact stride_of_root (up_root _ i)

/-! ## 5. Joining roots -/

/-- **Joining two roots puts their trees together**, and no others. -/
theorem base_point_eq_iff {f : Forest n} {a b : Fin n} (hlt : b < a) (ha : f.up a = a)
    (hb : f.up b = b) (k l : Nat) :
    (f.point a b a.isLt (Nat.le_of_lt hlt)).base k = (f.point a b a.isLt (Nat.le_of_lt hlt)).base l ↔
      f.base k = f.base l ∨ (f.base k = f.base a ∧ f.base l = f.base b) ∨
        (f.base k = f.base b ∧ f.base l = f.base a) := by
  have hbase (k : Nat) : (f.point a b a.isLt (Nat.le_of_lt hlt)).base k =
      if f.base k = a then b.val else f.base k := by
    by_cases hk : k < n
    · have hroot := root_point_of_roots hlt ha hb ⟨k, hk⟩
      rw [base_fin _ ⟨k, hk⟩, hroot, f.base_fin ⟨k, hk⟩]
      by_cases hka : f.root ⟨k, hk⟩ = a
      · rw [if_pos hka, if_pos (congrArg Fin.val hka)]
      · rw [if_neg hka, if_neg fun he => hka (Fin.ext he)]
    · rw [base, dif_neg hk, base, dif_neg hk, if_neg]
      have hlta := a.isLt
      omega
  have hbasea : f.base a = a := by rw [base_fin, root_of_up_eq ha]
  have hbaseb : f.base b = b := by rw [base_fin, root_of_up_eq hb]
  rw [hbase, hbase, hbasea, hbaseb]
  grind

theorem class_join_iff {f : Forest n} {a b : Nat} (ha : f.plain[a]? = some a)
    (hb : f.plain[b]? = some b) (hne : a ≠ b) (k l : Nat) :
    (f.plain.join a b).Class k l ↔ f.plain.Class k l ∨
      (f.plain.Class k a ∧ f.plain.Class l b) ∨ (f.plain.Class k b ∧ f.plain.Class l a) := by
  obtain ⟨hia, hupa⟩ := plain_eq_some ha
  obtain ⟨hib, hupb⟩ := plain_eq_some hb
  have hupa : f.up ⟨a, hia⟩ = ⟨a, hia⟩ := Fin.ext hupa
  have hupb : f.up ⟨b, hib⟩ = ⟨b, hib⟩ := Fin.ext hupb
  simp only [class_plain_iff]
  unfold Parents.join
  rcases Nat.lt_or_gt_of_ne hne with hlt | hlt
  · rw [Nat.max_eq_right (Nat.le_of_lt hlt), Nat.min_eq_left (Nat.le_of_lt hlt),
      ← f.plain_point b a hib (Nat.le_of_lt hlt), class_plain_iff,
      base_point_eq_iff (a := ⟨b, hib⟩) (b := ⟨a, hia⟩) hlt hupb hupa]
    exact or_congr_right or_comm
  · rw [Nat.max_eq_left (Nat.le_of_lt hlt), Nat.min_eq_right (Nat.le_of_lt hlt),
      ← f.plain_point a b hia (Nat.le_of_lt hlt), class_plain_iff,
      base_point_eq_iff (a := ⟨a, hia⟩) (b := ⟨b, hib⟩) hlt hupa hupb]

/-- **The parents of a forest are as asked.** -/
theorem sound_plain (f : Forest n) : f.plain.Sound n where
  length_eq := f.length_plain
  not_later := (exists_plain_iff.mp ⟨f, rfl⟩).2
  stays i hi m ps j h := by
    obtain ⟨g, hj, rfl, hle, -, -⟩ := walk_stays ⟨i, hi⟩ h
    refine ⟨?_, hle⟩
    obtain ⟨-, hhome⟩ | ⟨g', t, hon, -⟩ := g.stride_cases ⟨j, hj⟩
    · rw [hhome]
      exact nofun
    · rw [hon]
      exact nofun
  same i hi m ps j h k l := by
    obtain ⟨g, -, rfl, -, hroots, -⟩ := walk_stays ⟨i, hi⟩ h
    exact class_congr hroots k l
  ends i hi := by
    obtain ⟨m, hwalk⟩ := f.walk_find ⟨i, hi⟩
    exact ⟨m, _, _, hwalk, f.stride_find ⟨i, hi⟩⟩
  least i hi m ps r h hhome := by
    obtain ⟨g, hr, rfl, -, hroots, htree⟩ := walk_stays ⟨i, hi⟩ h
    obtain ⟨hup, -⟩ | ⟨g', t, hon, -⟩ := g.stride_cases ⟨r, hr⟩
    · have hbase : f.base i = r := by
        rw [f.base_fin ⟨i, hi⟩, ← htree, ← hroots, root_of_up_eq hup]
      rw [← hbase]
      exact f.isLeast_base i
    · rw [hon] at hhome
      cases hhome
  merges a b ha hb hne k l := class_join_iff ha hb hne k l

end Forest

/-- **No more is needed than that no row has a later parent.** -/
theorem Parents.sound_iff {n : Nat} {ps : Parents} :
    ps.Sound n ↔ ps.length = n ∧ ∀ i p : Nat, ps[i]? = some p → p ≤ i := by
  constructor
  · intro h
    exact ⟨h.length_eq, h.not_later⟩
  · intro h
    obtain ⟨f, rfl⟩ := Forest.exists_plain_iff.mpr h
    exact f.sound_plain

end Converge.Grouping
