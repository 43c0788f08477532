/-!
# White space and trimming

`blank` is the `White_Space` property of the Unicode standard; `trim` cuts blanks from both ends
of a text and nothing else.

* `blank_of_isWhitespace`: every blank of ASCII is a blank.
* `trimChars_eq_nil_iff`: the texts that trim to nothing are those made of blanks only.
-/

namespace Converge.Text

/-! ## 1. The class -/

/-- The `White_Space` property. -/
def blank (c : Char) : Bool :=
  let n := c.toNat
  (0x09 ≤ n && n ≤ 0x0D) || n == 0x20 || n == 0x85 || n == 0xA0 || n == 0x1680 ||
    (0x2000 ≤ n && n ≤ 0x200A) || n == 0x2028 || n == 0x2029 || n == 0x202F || n == 0x205F ||
    n == 0x3000

/-- **The narrow class is part of the wide one.** -/
theorem blank_of_isWhitespace (c : Char) (h : c.isWhitespace = true) : blank c = true := by
  simp only [Char.isWhitespace, Bool.or_eq_true, decide_eq_true_eq] at h
  rcases h with ((rfl | rfl) | rfl) | rfl <;> decide

/-! ## 2. Cutting -/

/-- The text without the blanks in front. -/
def trimStartChars (cs : List Char) : List Char := cs.dropWhile blank

/-- The text without the blanks at either end. -/
def trimChars (cs : List Char) : List Char :=
  ((cs.dropWhile blank).reverse.dropWhile blank).reverse

theorem dropWhile_eq_nil_iff_all {α : Type} (p : α → Bool) :
    ∀ l : List α, l.dropWhile p = [] ↔ ∀ a ∈ l, p a = true
  | [] => by simp
  | a :: l => by
    by_cases h : p a = true
    · simp [h, dropWhile_eq_nil_iff_all p l]
    · simp [h]

theorem head_dropWhile_eq_false {α : Type} {p : α → Bool} {a : α} :
    ∀ {l r : List α}, l.dropWhile p = a :: r → p a = false
  | [], _, h => by simp at h
  | b :: l, r, h => by
    by_cases hb : p b = true
    · rw [List.dropWhile_cons, if_pos hb] at h
      exact head_dropWhile_eq_false h
    · rw [List.dropWhile_cons, if_neg hb] at h
      injection h with h₁ _
      subst h₁
      simpa using hb

/-- **A text trims to nothing exactly if it holds nothing but blanks.** -/
theorem trimChars_eq_nil_iff (cs : List Char) :
    trimChars cs = [] ↔ ∀ c ∈ cs, blank c = true := by
  unfold trimChars
  rw [List.reverse_eq_nil_iff, dropWhile_eq_nil_iff_all]
  constructor
  · intro h
    rw [← dropWhile_eq_nil_iff_all]
    cases hd : cs.dropWhile blank with
    | nil => rfl
    | cons a r =>
      have := head_dropWhile_eq_false hd
      rw [hd] at h
      rw [h a (by simp)] at this
      cases this
  · intro h
    rw [(dropWhile_eq_nil_iff_all blank cs).mpr h]
    simp

/-- The text without the blanks at either end. -/
def trim (s : String) : String := String.ofList (trimChars s.toList)

/-- The text holds nothing but blanks. -/
def isBlank (s : String) : Bool := s.toList.all blank

end Converge.Text
