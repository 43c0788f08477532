import Converge.Proofs.Text.Digits
import Converge.Proofs.Toml.Quotes
import Converge.Toml.Reader
import Converge.Toml.Writer

/-!
# Values read back from settings files

* `read?_toDigits`: a number of up to 64 bits is read back from its digits, which are no day, no time
  of day and no word of another kind;
* `items?_lines`: so are texts on lines of their own;
* **`value?_plain`**: so is everything that can be written, in front of the end of its line.
-/

namespace Converge.Toml

open Text (Halts halts_cons takeWhile_run dropWhile_run exists_toDigits_eq_cons)

/-! ## 1. Numbers -/

namespace Scalar

variable {ds : List Char}

theorem fixed?_eq_drop {width n : Nat} {cs rest : List Char} (h : fixed? width cs = some (n, rest)) :
    rest = cs.drop width := by
  unfold fixed? at h
  simp only at h
  split at h
  · cases h
    rfl
  · cases h

theorem mem_of_fixed? {width n : Nat} {cs rest : List Char} {c : Char}
    (h : fixed? width cs = some (n, c :: rest)) : c ∈ cs :=
  List.mem_of_mem_drop ((fixed?_eq_drop h) ▸ List.mem_cons_self)

/-- Digits alone are no day. -/
theorem day?_digits (h : ∀ c ∈ ds, c.isDigit = true) : day? ds = none := by
  unfold day?
  cases hyear : fixed? 4 ds with
  | none => rfl
  | some found =>
    obtain ⟨year, rest⟩ := found
    simp only [Option.bind_eq_bind, Option.bind_some]
    split
    · exact absurd (h _ (mem_of_fixed? hyear)) (by decide)
    · rfl

/-- Digits alone are no time of day. -/
theorem clock?_digits (h : ∀ c ∈ ds, c.isDigit = true) : clock? ds = none := by
  unfold clock?
  cases hhour : fixed? 2 ds with
  | none => rfl
  | some found =>
    obtain ⟨hour, rest⟩ := found
    simp only [Option.bind_eq_bind, Option.bind_some]
    split
    · exact absurd (h _ (mem_of_fixed? hhour)) (by decide)
    · rfl

theorem digits?_digits : ∀ {ds : List Char}, ds ≠ [] → (∀ c ∈ ds, c.isDigit = true) →
    digits? Char.isDigit ds = some ds
  | [c], _, h => by
    rw [digits?, if_pos (h c List.mem_cons_self)]
  | c :: d :: ds, _, h => by
    have ih := digits?_digits (List.cons_ne_nil d ds) fun x hx => h x (List.mem_cons_of_mem _ hx)
    have hd : d ≠ '_' := by
      rintro rfl
      exact absurd (h '_' (by simp)) (by decide)
    rw [digits?, if_pos (h c List.mem_cons_self), ih]
    · rfl
    · simp
    · rintro rest ⟨rfl, -⟩
      exact hd rfl

theorem ofDigits_toDigits (n : Nat) : ofDigits 10 (Nat.toDigits 10 n) = n := by
  have hvalue : ∀ (cs : List Char) (m : Nat), (∀ c ∈ cs, c.isDigit = true) →
      cs.foldl (fun n c => n * 10 + digitValue c) m =
        cs.foldl (fun n c => n * 10 + (c.toNat - '0'.toNat)) m := by
    intro cs
    induction cs with
    | nil => exact fun _ _ => rfl
    | cons c cs ih =>
      intro m h
      have hc : digitValue c = c.toNat - '0'.toNat := if_pos (h c List.mem_cons_self)
      rw [List.foldl_cons, List.foldl_cons, hc, ih _ fun x hx => h x (List.mem_cons_of_mem _ hx)]
  exact (hvalue _ 0 fun c hc => Text.isDigit_of_mem c hc).trans (Text.foldl_toDigits n)

theorem plainDigits?_toDigits (n : Nat) :
    plainDigits? (Nat.toDigits 10 n) = some (Nat.toDigits 10 n) := by
  have hlead : ((Nat.toDigits 10 n).head? == some '0' && (Nat.toDigits 10 n).length != 1) = false := by
    rcases Nat.eq_zero_or_pos n with rfl | hpos
    · decide
    · simp [Text.head?_toDigits_ne_zero hpos]
  unfold plainDigits?
  rw [digits?_digits Nat.toDigits_ne_nil fun c hc => Text.isDigit_of_mem c hc]
  simp only [hlead]
  rfl

theorem wide?_cast {n : Nat} (h : n < 0x10000000000000000) : wide? (n : Int) = some (.int n) := by
  have hlow : (-0x80000000000000000000000000000000 : Int) ≤ n :=
    Int.le_trans (by decide) (Int.natCast_nonneg n)
  have hhigh : (n : Int) < 0x100000000000000000000000000000000 :=
    Int.lt_of_lt_of_le (Int.ofNat_lt.mpr h) (by decide)
  rw [wide?, if_pos (by rw [decide_eq_true hlow, decide_eq_true hhigh]; rfl)]

theorem integer?_toDigits {n : Nat} (h : n < 0x10000000000000000) :
    integer? (Nat.toDigits 10 n) = some (.int n) := by
  have hdigits : ∀ c ∈ Nat.toDigits 10 n, c.isDigit = true := fun c hc => Text.isDigit_of_mem c hc
  have hsign : splitSign (Nat.toDigits 10 n) = (false, Nat.toDigits 10 n) := by
    unfold splitSign
    split
    · rename_i heq
      exact absurd (hdigits _ (heq ▸ List.mem_cons_self)) (by decide)
    · rename_i heq
      exact absurd (hdigits _ (heq ▸ List.mem_cons_self)) (by decide)
    · rfl
  unfold integer?
  split
  iterate 3
    rename_i heq
    exact absurd (hdigits _ (heq ▸ List.mem_cons_of_mem _ List.mem_cons_self)) (by decide)
  rw [hsign]
  simp only
  rw [plainDigits?_toDigits, Option.bind_some, ofDigits_toDigits, if_neg Bool.false_ne_true]
  exact wide?_cast h

theorem isWordChar_digit {c : Char} (h : c.isDigit = true) : isWordChar c = true := by
  simp [isWordChar, Char.isAlphanum, h]

/-- **A number comes back from its digits**, at the end of a line. -/
theorem read?_toDigits {n : Nat} (h : n < 0x10000000000000000) (rest : List Char) :
    read? (Nat.toDigits 10 n ++ '\n' :: rest) = some (.int n, '\n' :: rest) := by
  have hdigits : ∀ c ∈ Nat.toDigits 10 n, c.isDigit = true := fun c hc => Text.isDigit_of_mem c hc
  have hhalts : Halts isWordChar ('\n' :: rest) := halts_cons.mpr (by decide)
  have htake := takeWhile_run (fun c hc => isWordChar_digit (hdigits c hc)) hhalts
  have hdrop := dropWhile_run (fun c hc => isWordChar_digit (hdigits c hc)) hhalts
  have hword : takeWord (Nat.toDigits 10 n ++ '\n' :: rest) = (Nat.toDigits 10 n, '\n' :: rest) := by
    unfold takeWord
    simp only [htake, hdrop]
    split
    · rename_i heq
      exact absurd (List.cons.inj heq).1 (by decide)
    · rfl
  obtain ⟨d, ds, hcons, hd⟩ := exists_toDigits_eq_cons n
  have htrue : (Nat.toDigits 10 n == "true".toList) = false := by
    rw [beq_eq_false_iff_ne, hcons]
    intro heq
    exact absurd ((List.cons.inj heq).1 ▸ hd) (by decide)
  have hfalse : (Nat.toDigits 10 n == "false".toList) = false := by
    rw [beq_eq_false_iff_ne, hcons]
    intro heq
    exact absurd ((List.cons.inj heq).1 ▸ hd) (by decide)
  have hmoment : isMoment (Nat.toDigits 10 n) = false := by
    simp only [isMoment, day?_digits hdigits, clock?_digits hdigits]
  unfold read?
  simp only [hword, ofWord?, htrue, hfalse, hmoment, integer?_toDigits h]
  rfl

end Scalar

/-! ## 2. Texts -/

namespace Reader

open Quoting (read? read?_write write)

/-- A text is written from a quote on. -/
theorem exists_write_eq_cons (s : String) :
    ∃ c cs, write s = c :: cs ∧ (c = '"' ∨ c = '\'') := by
  unfold write
  cases Quoting.chooseWay s.toList
  · exact ⟨'"', _, rfl, .inl rfl⟩
  · exact ⟨'\'', _, rfl, .inr rfl⟩
  · exact ⟨'"', _, rfl, .inl rfl⟩
  · exact ⟨'\'', _, rfl, .inr rfl⟩

variable {fuel depth : Nat} {rest : Rest}

/-- A text in front of what is no quote. -/
theorem value?_write (fuel depth : Nat) (s : String) (hdouble : Halts (· == '"') rest)
    (hsingle : Halts (· == '\'') rest) :
    value? (fuel + 1) depth (write s ++ rest) = some (.str s, rest) := by
  have hread := read?_write s hdouble hsingle
  obtain ⟨c, cs, hcs, hc⟩ := exists_write_eq_cons s
  rw [hcs, List.cons_append] at hread ⊢
  unfold value?
  rcases hc with rfl | rfl
  · simp only [hread]
    rfl
  · simp only [hread]
    rfl

theorem skipGaps?_write (s : String) (rest : Rest) :
    skipGaps? false (write s ++ rest) = some (write s ++ rest) := by
  obtain ⟨c, cs, hcs, hc⟩ := exists_write_eq_cons s
  rw [hcs, List.cons_append]
  rcases hc with rfl | rfl <;> rfl

/-- What comes of the items that were read, from what follows the last of them. -/
def afterItem (fuel depth : Nat) (items : List Value) : Option Rest → Option (Value × Rest)
  | some (',' :: rest) => items? fuel depth items rest
  | some (']' :: rest) => some (.arr items.reverse, rest)
  | _ => none

/-- An item that is a text is read. -/
theorem items?_write (fuel depth : Nat) (done : List Value) (s : String)
    (hdouble : Halts (· == '"') rest) (hsingle : Halts (· == '\'') rest) :
    items? (fuel + 2) depth done (write s ++ rest) =
      afterItem (fuel + 1) depth (.str s :: done) (skipGaps? false rest) := by
  have hvalue := value?_write fuel depth s hdouble hsingle
  have hgaps := skipGaps?_write s rest
  obtain ⟨c, cs, hcs, hc⟩ := exists_write_eq_cons s
  rw [hcs, List.cons_append] at hvalue hgaps ⊢
  rw [items?, hgaps]
  split
  · rename_i heq
    cases heq
  · rename_i heq
    obtain rfl := (List.cons.inj (Option.some.inj heq)).1
    rcases hc with hc | hc <;> exact absurd hc (by decide)
  · rename_i heq
    rw [← Option.some.inj heq, hvalue]
    rfl

/-- A text on a line of its own. -/
def textLine (s : String) : List Char := [' ', ' ', ' ', ' '] ++ write s ++ [',', '\n']

/-- **Texts come back from lines of their own.** -/
theorem items?_lines : ∀ (l : List String) (fuel : Nat) (done : List Value), l.length + 1 ≤ fuel →
    items? (fuel + 1) depth done ('\n' :: (l.flatMap textLine ++ ']' :: rest)) =
      some (.arr (done.reverse ++ l.map .str), rest)
  | [], fuel + 1, done, _ => by
    rw [items?]
    simp [skipGaps?, Quoting.isBlank]
  | s :: l, fuel + 1, done, h => by
    have ih := items?_lines l fuel (.str s :: done) (by simpa using h)
    have hline : (s :: l).flatMap textLine ++ ']' :: rest =
        ' ' :: ' ' :: ' ' :: ' ' :: (write s ++ ',' :: '\n' :: (l.flatMap textLine ++ ']' :: rest)) := by
      simp [textLine]
    have hgaps : skipGaps? false ('\n' :: ' ' :: ' ' :: ' ' :: ' ' ::
        (write s ++ ',' :: '\n' :: (l.flatMap textLine ++ ']' :: rest))) =
        skipGaps? false (write s ++ ',' :: '\n' :: (l.flatMap textLine ++ ']' :: rest)) := by
      simp [skipGaps?, Quoting.isBlank]
    have hread := items?_write fuel depth done s
      (show Halts (· == '"') (',' :: '\n' :: (l.flatMap textLine ++ ']' :: rest)) from
        halts_cons.mpr (by decide)) (halts_cons.mpr (by decide))
    rw [hline]
    rw [items?] at hread ⊢
    rw [hgaps, hread]
    have hcomma : skipGaps? false (',' :: '\n' :: (l.flatMap textLine ++ ']' :: rest)) =
        some (',' :: '\n' :: (l.flatMap textLine ++ ']' :: rest)) := rfl
    rw [hcomma, afterItem, ih]
    simp

theorem length_le_flatMap_textLine (l : List String) : l.length ≤ (l.flatMap textLine).length := by
  induction l with
  | nil => exact Nat.le_refl 0
  | cons s l ih =>
    rw [List.flatMap_cons, List.length_append, List.length_cons]
    have : 1 ≤ (textLine s).length := by simp [textLine]
    omega

/-! ## 3. All values -/

/-- The number fits 64 bits, if the value is one. -/
def Fits : Plain → Prop
  | .number n => n < 0x10000000000000000
  | .text _ | .texts _ => True

/-- **What is written is read back as what is meant**, at the end of a line. -/
theorem value?_plain {v : Plain} (hv : Fits v) (hdepth : depth ≠ 0)
    (hfuel : (Writer.value v).length + 3 ≤ fuel) (rest : Rest) :
    value? fuel depth (Writer.value v ++ '\n' :: rest) = some (v.toValue, '\n' :: rest) := by
  obtain ⟨fuel, rfl⟩ : ∃ n, fuel = n + 3 := ⟨fuel - 3, by omega⟩
  have hopens : (depth == 0) = false := beq_eq_false_iff_ne.mpr hdepth
  match v with
  | .number n =>
    have hread := Scalar.read?_toDigits hv rest
    obtain ⟨d, ds, hcons, hd⟩ := exists_toDigits_eq_cons n
    rw [Writer.value]
    rw [hcons, List.cons_append] at hread ⊢
    unfold value?
    split
    iterate 4
      rename_i heq
      exact absurd ((List.cons.inj heq).1 ▸ hd) (by decide)
    exact hread
  | .text s => exact value?_write _ _ s (halts_cons.mpr (by decide)) (halts_cons.mpr (by decide))
  | .texts [] =>
    simp [Writer.value, value?, hopens, items?, skipGaps?, Quoting.isBlank, Plain.toValue]
  | .texts [s] =>
    have hread := items?_write fuel (depth - 1) [] s
      (show Halts (· == '"') (']' :: '\n' :: rest) from halts_cons.mpr (by decide))
      (halts_cons.mpr (by decide))
    have htext : Writer.value (.texts [s]) ++ '\n' :: rest =
        '[' :: (write s ++ ']' :: '\n' :: rest) := by
      simp [Writer.value]
    rw [htext, value?]
    simp only [hopens, Bool.false_eq_true, if_false]
    rw [hread]
    rfl
  | .texts (s :: t :: l) =>
    have htext : Writer.value (.texts (s :: t :: l)) ++ '\n' :: rest =
        '[' :: '\n' :: ((s :: t :: l).flatMap textLine ++ ']' :: '\n' :: rest) := by
      change (['[', '\n'] ++ (s :: t :: l).flatMap textLine ++ [']']) ++ '\n' :: rest = _
      simp
    have hlength : (s :: t :: l).length ≤ (Writer.value (.texts (s :: t :: l))).length := by
      have hlines := length_le_flatMap_textLine (s :: t :: l)
      change _ ≤ (['[', '\n'] ++ (s :: t :: l).flatMap textLine ++ [']']).length
      rw [List.length_append, List.length_append]
      omega
    rw [htext, value?]
    simp only [hopens, Bool.false_eq_true, if_false]
    rw [items?_lines (s :: t :: l) (fuel + 1) [] (by omega)]
    rfl

end Reader

end Converge.Toml
