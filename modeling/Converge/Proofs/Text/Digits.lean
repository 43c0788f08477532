import Mathlib.Data.List.Basic

/-!
# Decimal digits

What readers of numbers need of the digits of a number: they are digits, there is at least one, no
zero leads, and they count up to the number. A reader that takes as many digits as it can takes these
and no more if none follows.
-/

namespace Converge.Text

variable {p : Char → Bool} {ds rest : List Char} {n : Nat}

/-! ## 1. Runs of characters -/

/-- The text does not go on with a character of the class. -/
def Halts (p : Char → Bool) (rest : List Char) : Prop := ∀ c ∈ rest.head?, p c = false

theorem halts_nil : Halts p [] := by simp [Halts]

@[simp] theorem halts_cons {c : Char} : Halts p (c :: rest) ↔ p c = false := by simp [Halts]

theorem Halts.takeWhile_eq_nil (h : Halts p rest) : rest.takeWhile p = [] := by
  cases rest with
  | nil => rfl
  | cons c rest => simp [halts_cons.mp h]

theorem Halts.dropWhile_eq_self (h : Halts p rest) : rest.dropWhile p = rest := by
  cases rest with
  | nil => rfl
  | cons c rest => simp [halts_cons.mp h]

/-- A run up to its end. -/
theorem takeWhile_run (hds : ∀ c ∈ ds, p c = true) (h : Halts p rest) :
    (ds ++ rest).takeWhile p = ds := by
  rw [List.takeWhile_append_of_pos hds, h.takeWhile_eq_nil, List.append_nil]

/-- What stands behind a run. -/
theorem dropWhile_run (hds : ∀ c ∈ ds, p c = true) (h : Halts p rest) :
    (ds ++ rest).dropWhile p = rest := by
  rw [List.dropWhile_append_of_pos hds, h.dropWhile_eq_self]

/-! ## 2. The digits of a number -/

theorem isDigit_of_mem (c : Char) (h : c ∈ Nat.toDigits 10 n) : c.isDigit = true :=
  Nat.isDigit_of_mem_toDigits (by decide) (by decide) h

/-- A number has a first digit. -/
theorem exists_toDigits_eq_cons (n : Nat) :
    ∃ d ds, Nat.toDigits 10 n = d :: ds ∧ d.isDigit = true := by
  cases h : Nat.toDigits 10 n with
  | nil => exact absurd h Nat.toDigits_ne_nil
  | cons d ds => exact ⟨d, ds, rfl, isDigit_of_mem d (h ▸ List.mem_cons_self)⟩

/-- Only zero begins with the digit zero. -/
theorem head?_toDigits_ne_zero (h : 0 < n) : (Nat.toDigits 10 n).head? ≠ some '0' := by
  induction n using Nat.strongRecOn with
  | ind n ih =>
    by_cases hn : n < 10
    · rw [Nat.toDigits_of_lt_base hn]
      simp
      omega
    · rw [Nat.toDigits_of_base_le (by decide) (by omega),
        List.head?_append_of_ne_nil _ Nat.toDigits_ne_nil]
      exact ih (n / 10) (by omega) (by omega)

/-- The digits count up to the number. -/
theorem foldl_toDigits (n : Nat) :
    (Nat.toDigits 10 n).foldl (fun acc c => acc * 10 + (c.toNat - '0'.toNat)) 0 = n := by
  have h : Nat.ofDigitChars 10 (Nat.toDigits 10 n) 0 = n := Nat.ofDigitChars_ten_toDigits
  rw [Nat.ofDigitChars_eq_foldl] at h
  simpa only [Nat.mul_comm] using h

end Converge.Text
