import Converge.Text.Lossy
import Mathlib.Data.List.Basic

/-!
# Texts read back from their bytes

The bytes of a character lead the reader from one boundary to the next and give that character
(`absorb_utf8EncodeChar`), so **every text is read back from its bytes** (`decodeStrict?_encode`).
-/

namespace Converge.Text

/-- One byte more: what was read, newest first, and the state behind it. -/
def absorb (acc : List (Option Char) × Pending) (b : UInt8) : List (Option Char) × Pending :=
  ((stepByte acc.2 b.toNat).1 ++ acc.1, (stepByte acc.2 b.toNat).2)

/-! ## 1. First bytes -/

variable {v : Nat}

theorem leadClass_two (hlow : 0x80 ≤ v) (hhigh : v < 0x800) :
    leadClass (v / 64 % 32 + 0xC0) = some ⟨1, 0x80, 0xBF, v / 64⟩ := by
  unfold leadClass
  rw [if_pos (by omega), show v / 64 % 32 + 0xC0 - 0xC0 = v / 64 by omega]

/-- The first of three bytes bounds the second one, and that one is within the bounds. -/
theorem leadClass_three (hlow : 0x800 ≤ v) (hhigh : v < 0x10000)
    (hvalid : v < 0xD800 ∨ 0xDFFF < v) :
    ∃ lo hi, leadClass (v / 4096 % 16 + 0xE0) = some ⟨2, lo, hi, v / 4096⟩ ∧
      lo ≤ v / 64 % 64 + 0x80 ∧ v / 64 % 64 + 0x80 ≤ hi := by
  unfold leadClass
  rw [if_neg (by omega)]
  split
  · exact ⟨0xA0, 0xBF, by rw [show v / 4096 = 0 by omega], by omega, by omega⟩
  split
  · exact ⟨0x80, 0x9F, by rw [show v / 4096 % 16 + 0xE0 - 0xE0 = v / 4096 by omega], by omega,
      by omega⟩
  rw [if_pos (by omega)]
  exact ⟨0x80, 0xBF, by rw [show v / 4096 % 16 + 0xE0 - 0xE0 = v / 4096 by omega], by omega,
    by omega⟩

/-- So does the first of four bytes. -/
theorem leadClass_four (hlow : 0x10000 ≤ v) (hhigh : v < 0x110000) :
    ∃ lo hi, leadClass (v / 262144 % 8 + 0xF0) = some ⟨3, lo, hi, v / 262144⟩ ∧
      lo ≤ v / 4096 % 64 + 0x80 ∧ v / 4096 % 64 + 0x80 ≤ hi := by
  unfold leadClass
  rw [if_neg (by omega), if_neg (by omega), if_neg (by omega), if_neg (by omega)]
  split
  · exact ⟨0x90, 0xBF, by rw [show v / 262144 = 0 by omega], by omega, by omega⟩
  split
  · exact ⟨0x80, 0xBF, by rw [show v / 262144 % 8 + 0xF0 - 0xF0 = v / 262144 by omega], by omega,
      by omega⟩
  rw [if_pos (by omega)]
  exact ⟨0x80, 0x8F, by rw [show v / 262144 = 4 by omega], by omega, by omega⟩

/-! ## 2. Characters -/

variable {out : List (Option Char)}

theorem absorb_lead {n : Nat} {l : Lead} (hn : n < 256) (hlarge : 0x80 ≤ n)
    (h : leadClass n = some l) :
    absorb (out, .boundary) (UInt8.ofNat n) = (out, .inside l) := by
  simp [absorb, stepByte, stepBoundary, Nat.mod_eq_of_lt hn, show ¬ n < 128 by omega, h]

theorem absorb_more {n : Nat} {l : Lead} (hn : n < 256) (hlo : l.lo ≤ n) (hhi : n ≤ l.hi)
    (hmore : 1 < l.more) :
    absorb (out, .inside l) (UInt8.ofNat n) =
      (out, .inside ⟨l.more - 1, 0x80, 0xBF, l.bits * 64 + (n - 0x80)⟩) := by
  simp [absorb, stepByte, Nat.mod_eq_of_lt hn, hlo, hhi, show ¬ l.more ≤ 1 by omega]

theorem absorb_last {n : Nat} {l : Lead} (hn : n < 256) (hlo : l.lo ≤ n) (hhi : n ≤ l.hi)
    (hmore : l.more = 1) :
    absorb (out, .inside l) (UInt8.ofNat n) =
      (some (Char.ofNat (l.bits * 64 + (n - 0x80))) :: out, .boundary) := by
  simp [absorb, stepByte, Nat.mod_eq_of_lt hn, hlo, hhi, hmore]

/-- **The bytes of a character lead from boundary to boundary and give the character.** -/
theorem absorb_utf8EncodeChar (c : Char) :
    (String.utf8EncodeChar c).foldl absorb (out, .boundary) = (some c :: out, .boundary) := by
  have hvalid : c.toNat < 0xD800 ∨ 0xDFFF < c.toNat ∧ c.toNat < 0x110000 := c.valid
  have hself : ∀ n, n = c.toNat → Char.ofNat n = c := by
    rintro n rfl
    exact Char.ofNat_toNat c
  have hchar : String.utf8EncodeChar c =
      if c.toNat ≤ 0x7f then [UInt8.ofNat c.toNat]
      else if c.toNat ≤ 0x7ff then
        [UInt8.ofNat (c.toNat / 64 % 32 + 0xC0), UInt8.ofNat (c.toNat % 64 + 0x80)]
      else if c.toNat ≤ 0xffff then
        [UInt8.ofNat (c.toNat / 4096 % 16 + 0xE0), UInt8.ofNat (c.toNat / 64 % 64 + 0x80),
          UInt8.ofNat (c.toNat % 64 + 0x80)]
      else
        [UInt8.ofNat (c.toNat / 262144 % 8 + 0xF0), UInt8.ofNat (c.toNat / 4096 % 64 + 0x80),
          UInt8.ofNat (c.toNat / 64 % 64 + 0x80), UInt8.ofNat (c.toNat % 64 + 0x80)] := rfl
  rw [hchar]
  generalize c.toNat = v at hvalid hself
  split
  · have hone : stepBoundary v = ([some (Char.ofNat v)], .boundary) := if_pos (by omega)
    simp [absorb, stepByte, Nat.mod_eq_of_lt (show v < 256 by omega), hone, hself v rfl]
  split
  · simp only [List.foldl_cons, List.foldl_nil]
    rw [absorb_lead (by omega) (by omega) (leadClass_two (by omega) (by omega)),
      absorb_last (by omega) (by simp) (by simp; omega) rfl]
    rw [hself _ (by simp; omega)]
  split
  · obtain ⟨lo, hi, hlead, hlo, hhi⟩ := leadClass_three (v := v) (by omega) (by omega) (by omega)
    simp only [List.foldl_cons, List.foldl_nil]
    rw [absorb_lead (by omega) (by omega) hlead, absorb_more (by omega) hlo hhi (by simp),
      absorb_last (by omega) (by simp) (by simp; omega) rfl]
    rw [hself _ (by simp; omega)]
  · obtain ⟨lo, hi, hlead, hlo, hhi⟩ := leadClass_four (v := v) (by omega) (by omega)
    simp only [List.foldl_cons, List.foldl_nil]
    rw [absorb_lead (by omega) (by omega) hlead, absorb_more (by omega) hlo hhi (by simp),
      absorb_more (by omega) (by simp) (by simp; omega) (by simp),
      absorb_last (by omega) (by simp) (by simp; omega) rfl]
    rw [hself _ (by simp; omega)]

/-! ## 3. Texts -/

theorem absorb_chars : ∀ (cs : List Char) (out : List (Option Char)),
    (cs.flatMap String.utf8EncodeChar).foldl absorb (out, .boundary) =
      ((cs.map some).reverse ++ out, .boundary)
  | [], _ => rfl
  | c :: cs, out => by
    rw [List.flatMap_cons, List.foldl_append, absorb_utf8EncodeChar, absorb_chars cs]
    simp

theorem toList_loop (bytes : ByteArray) (i : Nat) (done : List UInt8) :
    ByteArray.toList.loop bytes i done = done.reverse ++ bytes.data.toList.drop i := by
  fun_induction ByteArray.toList.loop bytes i done with
  | case1 i done h ih =>
    have hlt : i < bytes.data.toList.length := h
    have hget : bytes.get! i = bytes.data.toList[i] := by
      rw [Array.getElem_toList]
      exact getElem!_pos bytes.data i h
    rw [ih, hget, List.reverse_cons, List.append_assoc, List.singleton_append,
      ← List.drop_eq_getElem_cons hlt]
  | case2 i done h =>
    have hle : bytes.data.toList.length ≤ i := Nat.le_of_not_lt h
    rw [List.drop_eq_nil_of_le hle, List.append_nil]

theorem encode_eq (s : String) : encode s = s.toList.flatMap String.utf8EncodeChar := by
  have hbytes : s.toUTF8 = s.toList.utf8Encode := by
    rw [String.toUTF8_eq_toByteArray, ← String.toByteArray_ofList, String.ofList_toList]
  rw [encode, hbytes, List.utf8Encode, ByteArray.toList, toList_loop, List.reverse_nil,
    List.nil_append, List.drop_zero]
  simp

/-- The characters at the end of the bytes, newest first, with what is left of an unfinished one. -/
def closed (acc : List (Option Char) × Pending) : List (Option Char) :=
  match acc.2 with
  | .boundary => acc.1.reverse
  | .inside _ => (none :: acc.1).reverse

theorem decodeParts_eq (bytes : List UInt8) :
    decodeParts bytes = closed (bytes.foldl absorb ([], .boundary)) := rfl

theorem decodeParts_encode (s : String) : decodeParts (encode s) = s.toList.map some := by
  have hfold : (encode s).foldl absorb ([], .boundary) =
      ((s.toList.map some).reverse, .boundary) := by
    rw [encode_eq, absorb_chars, List.append_nil]
  rw [decodeParts_eq, hfold]
  exact List.reverse_reverse _

/-- **Every text is read back from its bytes.** -/
theorem decodeStrict?_encode (s : String) : decodeStrict? (encode s) = some s := by
  have hall : ∀ cs : List Char, (cs.map some).mapM (id : Option Char → Option Char) = some cs := by
    intro cs
    induction cs with
    | nil => rfl
    | cons c cs ih => simp [ih]
  rw [decodeStrict?, decodeParts_encode, hall, Option.map_some, String.ofList_toList]

end Converge.Text
