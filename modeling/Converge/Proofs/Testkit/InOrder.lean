import Mathlib.Data.List.Forall2
import Converge.Testkit.Verify

/-!
# Patterns found one after another

The check goes over the lines once and takes for each pattern the first line that has it. It is exact
all the same: a pattern that can be found further behind can be found there, and nothing is lost by
the earlier line.

* `Places`, `InOrder`: places in ascending order, one for each pattern, whose lines contain the patterns;
* `inOrder_cons_cons`: the first line has the first pattern, or all patterns are found behind it;
* **`inOrder_of_behind`**: the first line that contains a pattern serves as well as any other;
* `firstMissing?_eq_none_iff`, `firstMissing?_eq_some`: whether the search comes to its end, and where it
  stops;
* **`in_order_exact`**: what the check answers, for all lines and patterns.
-/

namespace Converge.Testkit.Verify

/-! ## 1. Places of patterns -/

/-- The pattern stands in the line at a place. -/
def At (lines : List String) (place : Nat) (pattern : String) : Prop :=
  ∃ line, lines[place]? = some line ∧ ∃ a b, line = a ++ pattern ++ b

/-- Places in ascending order, one for each pattern, whose lines contain the patterns. -/
structure Places (lines patterns : List String) (places : List Nat) : Prop where
  ascending : places.Pairwise (· < ·)
  found : List.Forall₂ (At lines) places patterns

/-- The lines contain the patterns one after another. -/
def InOrder (lines patterns : List String) : Prop := ∃ places, Places lines patterns places

variable {lines rest patterns : List String} {line p : String}

theorem at_zero : At (line :: rest) 0 p ↔ Text.occurs p line = true := by
  rw [Text.occurs_iff]
  constructor
  · rintro ⟨_, ⟨⟩, h⟩
    exact h
  · intro h
    exact ⟨line, rfl, h⟩

/-- One line in front moves all places by one. -/
theorem places_succ {places : List Nat} :
    Places (line :: rest) patterns (places.map Nat.succ) ↔ Places rest patterns places := by
  constructor
  · rintro ⟨hasc, hfound⟩
    have hbehind : List.Forall₂ (fun i => At (line :: rest) i.succ) places patterns :=
      List.forall₂_map_left_iff.mp hfound
    exact ⟨(List.pairwise_map.mp hasc).imp Nat.lt_of_succ_lt_succ, hbehind⟩
  · rintro ⟨hasc, hfound⟩
    refine ⟨List.pairwise_map.mpr (hasc.imp Nat.succ_lt_succ), ?_⟩
    exact List.forall₂_map_left_iff.mpr hfound

theorem exists_map_succ : ∀ {places : List Nat}, (∀ i ∈ places, 0 < i) →
    ∃ js : List Nat, places = js.map Nat.succ
  | [], _ => ⟨[], rfl⟩
  | i :: places, h => by
    obtain ⟨js, rfl⟩ := exists_map_succ fun j hj => h j (List.mem_cons_of_mem _ hj)
    have hpos : 0 < i := h i List.mem_cons_self
    refine ⟨(i - 1) :: js, ?_⟩
    rw [List.map_cons, Nat.succ_eq_add_one, Nat.sub_add_cancel hpos]

/-- The first pattern stands in the first line, and the others behind it. -/
theorem places_zero_cons {places : List Nat} :
    Places (line :: rest) (p :: patterns) (0 :: places.map Nat.succ) ↔
      Text.occurs p line = true ∧ Places rest patterns places := by
  constructor
  · rintro ⟨hasc, hfound⟩
    obtain ⟨hat, hbehind⟩ := List.forall₂_cons.mp hfound
    exact ⟨at_zero.mp hat, places_succ.mp ⟨hasc.of_cons, hbehind⟩⟩
  · rintro ⟨hoccurs, h⟩
    have hbehind : Places (line :: rest) patterns (places.map Nat.succ) := places_succ.mpr h
    refine ⟨List.pairwise_cons.mpr ⟨?_, hbehind.ascending⟩,
      .cons (at_zero.mpr hoccurs) hbehind.found⟩
    intro j hj
    obtain ⟨k, -, rfl⟩ := List.mem_map.mp hj
    exact Nat.succ_pos k

/-! ## 2. Lines and patterns one by one -/

theorem inOrder_nil (lines : List String) : InOrder lines [] := ⟨[], .nil, .nil⟩

theorem not_inOrder_of_no_lines : ¬ InOrder [] (p :: patterns) := by
  rintro ⟨_, -, _ | ⟨⟨line, hline, -⟩, -⟩⟩
  cases hline

/-- Fewer patterns are found where more are. -/
theorem InOrder.tail (h : InOrder lines (p :: patterns)) : InOrder lines patterns := by
  obtain ⟨_, hasc, _ | ⟨-, hfound⟩⟩ := h
  exact ⟨_, hasc.of_cons, hfound⟩

/-- **The first line has the first pattern, or all patterns are found behind it.** -/
theorem inOrder_cons_cons :
    InOrder (line :: rest) (p :: patterns) ↔
      (Text.occurs p line = true ∧ InOrder rest patterns) ∨ InOrder rest (p :: patterns) := by
  constructor
  · rintro ⟨places, hplaces⟩
    cases places with
    | nil => cases hplaces.found
    | cons i is =>
      have hafter := (List.pairwise_cons.mp hplaces.ascending).1
      cases i with
      | zero =>
        obtain ⟨js, rfl⟩ := exists_map_succ hafter
        obtain ⟨hoccurs, hrest⟩ := places_zero_cons.mp hplaces
        exact .inl ⟨hoccurs, js, hrest⟩
      | succ i =>
        have hpos : ∀ j ∈ i.succ :: is, 0 < j := by
          intro j hj
          rcases List.mem_cons.mp hj with rfl | hj
          · omega
          · have hlt := hafter j hj
            omega
        obtain ⟨js, hjs⟩ := exists_map_succ hpos
        rw [Nat.succ_eq_add_one] at hjs
        exact .inr ⟨js, places_succ.mp (hjs ▸ hplaces)⟩
  · rintro (⟨hoccurs, places, hplaces⟩ | ⟨places, hplaces⟩)
    · exact ⟨_, places_zero_cons.mpr ⟨hoccurs, hplaces⟩⟩
    · exact ⟨_, places_succ.mpr hplaces⟩

/-! ## 3. The search -/

/-- **The first line that contains a pattern serves as well as any other**: what can be found behind
    another one can be found behind it. -/
theorem inOrder_of_behind (patterns : List String) : ∀ {lines rest : List String},
    behind? p lines = some rest → (InOrder lines (p :: patterns) ↔ InOrder rest patterns)
  | [], rest, h => by cases h
  | line :: later, rest, h => by
    unfold behind? at h
    rw [inOrder_cons_cons]
    by_cases hoccurs : Text.occurs p line = true
    · rw [if_pos hoccurs] at h
      obtain rfl := Option.some.inj h
      constructor
      · rintro (⟨-, hlater⟩ | hlater)
        · exact hlater
        · exact hlater.tail
      · intro hlater
        exact .inl ⟨hoccurs, hlater⟩
    · rw [if_neg hoccurs] at h
      rw [← inOrder_of_behind patterns h]
      exact or_iff_right fun hfirst => hoccurs hfirst.1

theorem not_inOrder_of_behind : ∀ {lines : List String}, behind? p lines = none →
    ¬ InOrder lines (p :: patterns)
  | [], _ => not_inOrder_of_no_lines
  | line :: later, h => by
    unfold behind? at h
    rw [inOrder_cons_cons]
    by_cases hoccurs : Text.occurs p line = true
    · rw [if_pos hoccurs] at h
      cases h
    · rw [if_neg hoccurs] at h
      rintro (hfirst | hlater)
      · exact hoccurs hfirst.1
      · exact not_inOrder_of_behind h hlater

theorem firstMissing?_eq_none_iff : ∀ {patterns lines : List String},
    firstMissing? lines patterns = none ↔ InOrder lines patterns
  | [], lines => iff_of_true rfl (inOrder_nil lines)
  | p :: patterns, lines => by
    unfold firstMissing?
    cases h : behind? p lines with
    | none => exact iff_of_false nofun (not_inOrder_of_behind h)
    | some rest =>
      rw [inOrder_of_behind patterns h]
      exact firstMissing?_eq_none_iff

/-- **The search stops at the first pattern up to which there are no places.** -/
theorem firstMissing?_eq_some : ∀ {patterns lines : List String},
    firstMissing? lines patterns = some p → ∃ i : Nat, patterns[i]? = some p ∧
      ¬ InOrder lines (patterns.take (i + 1)) ∧ ∀ j ≤ i, InOrder lines (patterns.take j)
  | [], lines, h => by cases h
  | q :: patterns, lines, h => by
    unfold firstMissing? at h
    cases hbehind : behind? q lines with
    | none =>
      rw [hbehind] at h
      obtain rfl := Option.some.inj h
      refine ⟨0, rfl, not_inOrder_of_behind hbehind, ?_⟩
      intro j hj
      obtain rfl := Nat.le_zero.mp hj
      exact inOrder_nil lines
    | some rest =>
      rw [hbehind] at h
      obtain ⟨i, hi, hnot, hupto⟩ := firstMissing?_eq_some h
      refine ⟨i + 1, hi, ?_, ?_⟩
      · rw [List.take_succ_cons, inOrder_of_behind _ hbehind]
        exact hnot
      · intro j hj
        cases j with
        | zero => exact inOrder_nil lines
        | succ j =>
          rw [List.take_succ_cons, inOrder_of_behind _ hbehind]
          exact hupto j (by omega)

/-- **The check is exact**, for all lines and all patterns: it passes exactly if there are places in
    ascending order, one for each pattern, whose lines contain the patterns. Otherwise it names the first
    pattern up to which there are no such places. -/
theorem in_order_exact (lines patterns : List String) :
    (inOrder lines patterns = .ok () ↔ InOrder lines patterns) ∧
    ∀ m, inOrder lines patterns = .error m → ∃ (i : Nat) (p : String), patterns[i]? = some p ∧
      m = .notFound p lines ∧ ¬ InOrder lines (patterns.take (i + 1)) ∧
        ∀ j ≤ i, InOrder lines (patterns.take j) := by
  rw [← firstMissing?_eq_none_iff]
  unfold inOrder
  cases h : firstMissing? lines patterns with
  | none => exact ⟨iff_of_true rfl rfl, nofun⟩
  | some p =>
    refine ⟨iff_of_false nofun nofun, ?_⟩
    intro m hm
    obtain rfl := Except.error.inj hm
    obtain ⟨i, hi, hnot, hupto⟩ := firstMissing?_eq_some h
    exact ⟨i, p, hi, rfl, hnot, hupto⟩

end Converge.Testkit.Verify
