import Converge.Json.Reader
import Converge.Proofs.Text.Digits

/-!
# Values read back from their text

What `compact` writes, `value` reads: from the text of a value with anything behind it comes the value
and what is behind it, as long as the value is not deeper than the levels that are left. Values that
are too deep are refused.

* `Plain`: the values that have a text of their own: whole numbers of 64 bits, members in order;
* `nesting`: the levels of arrays and objects of a value;
* `stringBody_escaped`: **every text comes back**, quotes, backslashes and control characters
  included; `numeral?_digits`, `value?_whole`: so does every number of 64 bits;
* **`value_compact`**: so does every plain value; `parse_compact` for whole texts.
-/

namespace Converge.Json

open Text (Halts takeWhile_run dropWhile_run foldl_toDigits exists_toDigits_eq_cons
  head?_toDigits_ne_zero)

/-! ## 1. Plain values and their levels -/

mutual

/-- All numbers are whole and have 64 bits, and all objects have their members in order. -/
def Plain : Json → Prop
  | .int n => -0x8000000000000000 ≤ n ∧ n < 0x10000000000000000
  | .float _ => False
  | .arr items => PlainItems items
  | .obj members =>
    (members.Pairwise fun a b => compare a.1 b.1 = .lt) ∧ PlainMembers members
  | .null | .bool _ | .str _ => True

def PlainItems : List Json → Prop
  | [] => True
  | j :: rest => Plain j ∧ PlainItems rest

def PlainMembers : List (String × Json) → Prop
  | [] => True
  | (_, j) :: rest => Plain j ∧ PlainMembers rest

end

mutual

/-- How many arrays and objects lie in each other. -/
def nesting : Json → Nat
  | .arr items => itemsNesting items + 1
  | .obj members => membersNesting members + 1
  | .null | .bool _ | .int _ | .float _ | .str _ => 0

def itemsNesting : List Json → Nat
  | [] => 0
  | j :: rest => max (nesting j) (itemsNesting rest)

def membersNesting : List (String × Json) → Nat
  | [] => 0
  | (_, j) :: rest => max (nesting j) (membersNesting rest)

end

/-! ## 2. Strings -/

namespace Reader

/-- The escape of a control character that has no short one. -/
def unicodeDigits (n : Nat) : List Char :=
  List.replicate (4 - (Nat.toDigits 16 n).length) '0' ++ Nat.toDigits 16 n

theorem hex4?_append : ∀ {ds : List Char} {n : Nat} (rest : Rest), hex4? ds = some (n, []) →
    hex4? (ds ++ rest) = some (n, rest)
  | [], _, _, h | [_], _, _, h | [_, _], _, _, h | [_, _, _], _, _, h => by simp [hex4?] at h
  | a :: b :: c :: d :: ds, n, rest, h => by
    simp only [hex4?, Option.bind_eq_bind, Option.bind_eq_some_iff, Option.some.injEq,
      Prod.mk.injEq] at h
    obtain ⟨a', ha, b', hb, c', hc, d', hd, rfl, rfl⟩ := h
    simp [hex4?, ha, hb, hc, hd]

theorem unicodeEscape?_unicodeDigits {n : Nat} (h : n < 0x20) (rest : Rest) :
    unicodeEscape? (unicodeDigits n ++ rest) = some (Char.ofNat n, rest) := by
  have hread : ∀ n < 0x20, hex4? (unicodeDigits n) = some (n, []) := by decide
  unfold unicodeEscape?
  rw [hex4?_append rest (hread n h)]
  simp only [Option.bind_eq_bind, Option.bind_some]
  rw [if_neg (by omega), if_neg (by omega)]

/-- Most characters stand for themselves. -/
theorem stringBody_plain {fuel : Nat} {done : List Char} {c : Char} {rest : Rest}
    (hquote : c ≠ '"') (hslash : c ≠ '\\') (hlarge : ¬ c.toNat < 0x20) :
    stringBody (fuel + 1) done (c :: rest) = stringBody fuel (c :: done) rest := by
  rw [stringBody]
  · rw [if_neg (by simpa [hslash] using hlarge)]
  · exact hquote
  · exact fun _ h _ => hslash h
  · exact fun _ _ h _ => hslash h

/-- One character comes back from how it is written. -/
theorem stringBody_escapeChar (fuel : Nat) (done : List Char) (c : Char) (rest : Rest) :
    stringBody (fuel + 1) done (escapeChar c ++ rest) = stringBody fuel (c :: done) rest := by
  unfold escapeChar
  split
  iterate 7 · rfl
  · split
    · rename_i hsmall
      have happ : ['\\', 'u'] ++ List.replicate (4 - (Nat.toDigits 16 c.toNat).length) '0' ++
          Nat.toDigits 16 c.toNat ++ rest = '\\' :: 'u' :: (unicodeDigits c.toNat ++ rest) := by
        simp [unicodeDigits]
      simp only
      rw [happ]
      simp only [stringBody]
      rw [unicodeEscape?_unicodeDigits hsmall, Char.ofNat_toNat]
    · rename_i hquote hslash _ _ _ _ _ hlarge
      exact stringBody_plain hquote hslash hlarge

/-- **A text comes back from how it is written.** -/
theorem stringBody_escaped : ∀ (cs : List Char) (fuel : Nat) (done : List Char) (rest : Rest),
    cs.length < fuel →
    stringBody fuel done (cs.flatMap escapeChar ++ '"' :: rest) =
      some (String.ofList (done.reverse ++ cs), rest)
  | [], fuel + 1, done, rest, _ => by simp [stringBody]
  | c :: cs, fuel + 1, done, rest, h => by
    rw [List.flatMap_cons, List.append_assoc, stringBody_escapeChar,
      stringBody_escaped cs fuel (c :: done) rest (by simpa using h)]
    simp

theorem length_le_length_escaped (cs : List Char) : cs.length ≤ (cs.flatMap escapeChar).length := by
  induction cs with
  | nil => simp
  | cons c cs ih =>
    have hone : 1 ≤ (escapeChar c).length := by
      unfold escapeChar
      split <;> try simp
      split <;> simp
    rw [List.flatMap_cons, List.length_append, List.length_cons]
    omega

theorem toList_quote (s : String) :
    (quote s).toList = '"' :: (s.toList.flatMap escapeChar ++ ['"']) := by
  simp [quote]

/-- What `string?` reads behind the quote that opens a text. -/
theorem string?_quoted (s : String) (rest : Rest) :
    string? (s.toList.flatMap escapeChar ++ '"' :: rest) = some (s, rest) := by
  have hlength := length_le_length_escaped s.toList
  unfold string?
  rw [stringBody_escaped _ _ _ _ (by rw [List.length_append]; omega)]
  simp

/-! ## 3. Numbers -/

/-- What can stand behind a value: the end of a text or of an array or an object, or a comma. -/
def Bounded (rest : Rest) : Prop := ∀ c ∈ rest.head?, c = ',' ∨ c = ']' ∨ c = '\x7d'

theorem bounded_nil : Bounded [] := by simp [Bounded]

theorem bounded_cons {c : Char} {rest : Rest} (h : c = ',' ∨ c = ']' ∨ c = '\x7d') :
    Bounded (c :: rest) := by
  simpa [Bounded] using h

/-- The digits of a number are a whole numeral. -/
theorem numeral?_digits (negative : Bool) (n : Nat) {rest : Rest} (h : Bounded rest) :
    numeral? negative (Nat.toDigits 10 n ++ rest) =
      some (⟨negative, Nat.toDigits 10 n, none, none⟩, rest) := by
  have hhalts : Halts Char.isDigit rest := by
    intro c hc
    rcases h c hc with rfl | rfl | rfl <;> rfl
  have htake := takeWhile_run (fun c hc => Text.isDigit_of_mem (n := n) c hc) hhalts
  have hdrop := dropWhile_run (fun c hc => Text.isDigit_of_mem (n := n) c hc) hhalts
  have hlead : ((Nat.toDigits 10 n).isEmpty ||
      ((Nat.toDigits 10 n).head? == some '0' && decide (1 < (Nat.toDigits 10 n).length))) = false := by
    have hne : Nat.toDigits 10 n ≠ [] := Nat.toDigits_ne_nil
    rcases Nat.eq_zero_or_pos n with rfl | hpos
    · decide
    · simp [hne, head?_toDigits_ne_zero hpos]
  unfold numeral?
  simp only [htake, hdrop, hlead]
  cases rest with
  | nil => rfl
  | cons c rest => rcases h c rfl with rfl | rfl | rfl <;> rfl

/-- The number that digits count up to. -/
def counted (n : Nat) (cs : List Char) : Nat := cs.foldl (fun acc c => acc * 10 + digitValue c) n

theorem counted_toDigits (n : Nat) : counted 0 (Nat.toDigits 10 n) = n := foldl_toDigits n

theorem le_counted : ∀ (n : Nat) (cs : List Char), n ≤ counted n cs
  | _, [] => Nat.le_refl _
  | n, c :: cs =>
    have hfirst : n ≤ n * 10 + digitValue c := by omega
    Nat.le_trans hfirst (le_counted _ cs)

/-- Digits that stay below the limit are all taken. -/
theorem gather_eq : ∀ (cs : List Char) (n : Nat), counted n cs < wordLimit →
    gather n cs = (counted n cs, [])
  | [], _, _ => rfl
  | c :: cs, n, h => by
    rw [gather, if_pos (Nat.lt_of_le_of_lt (le_counted _ cs) h)]
    exact gather_eq cs _ h

theorem gather_toDigits {n : Nat} (h : n < wordLimit) :
    gather 0 (Nat.toDigits 10 n) = (n, []) := by
  have hcounted := counted_toDigits n
  rw [gather_eq _ _ (by rw [hcounted]; exact h), hcounted]

theorem value?_whole {n : Nat} (h : n < wordLimit) :
    Numeral.value? ⟨false, Nat.toDigits 10 n, none, none⟩ = some (.int n) := by
  simp [Numeral.value?, gather_toDigits h]

theorem value?_negative {n : Nat} (hpos : 0 < n) (h : n ≤ 0x8000000000000000) :
    Numeral.value? ⟨true, Nat.toDigits 10 n, none, none⟩ = some (.int (-n)) := by
  have hfits : (n == 0 || decide (0x8000000000000000 < n)) = false := by
    simp
    omega
  simp [Numeral.value?, gather_toDigits (show n < wordLimit by rw [wordLimit]; omega), hfits]

/-! ## 4. Values -/

theorem skipGap_cons {c : Char} {cs : Rest} (h : isGap c = false) : skipGap (c :: cs) = c :: cs := by
  simp [skipGap, h]

theorem isGap_digit {c : Char} (h : c.isDigit = true) : isGap c = false := by
  cases hgap : isGap c with
  | false => rfl
  | true =>
    simp only [isGap, Bool.or_eq_true, beq_iff_eq] at hgap
    rcases hgap with ((rfl | rfl) | rfl) | rfl <;> exact absurd h (by decide)

variable {fuel depth : Nat} {rest : Rest}

theorem value_null : value (fuel + 1) depth ((compact .null).toList ++ rest) = some (.null, rest) := by
  simp [compact, value, skipGap, isGap, word?]

theorem value_bool (b : Bool) :
    value (fuel + 1) depth ((compact (.bool b)).toList ++ rest) = some (.bool b, rest) := by
  cases b <;> simp [compact, value, skipGap, isGap, word?]

theorem value_whole {n : Nat} (h : Bounded rest) (hn : n < wordLimit) :
    value (fuel + 1) depth (Nat.toDigits 10 n ++ rest) = some (.int n, rest) := by
  obtain ⟨d, ds, hdigits, hd⟩ := exists_toDigits_eq_cons n
  have hhead : ∀ {c : Char} {cs : Rest}, Nat.toDigits 10 n ++ rest = c :: cs → c.isDigit = true := by
    intro c cs hcs
    rw [hdigits, List.cons_append, List.cons.injEq] at hcs
    exact hcs.1 ▸ hd
  have hgap : skipGap (Nat.toDigits 10 n ++ rest) = Nat.toDigits 10 n ++ rest := by
    rw [hdigits, List.cons_append]
    exact skipGap_cons (isGap_digit hd)
  unfold value
  rw [hgap]
  split
  iterate 7 · exact absurd (hhead ‹_›) (by decide)
  simp [numeral?_digits false n h, value?_whole hn]

theorem value_negative {n : Nat} (h : Bounded rest) (hpos : 0 < n) (hn : n ≤ 0x8000000000000000) :
    value (fuel + 1) depth ('-' :: (Nat.toDigits 10 n ++ rest)) = some (.int (-n), rest) := by
  unfold value
  rw [skipGap_cons (by decide)]
  simp [numeral?_digits true n h, value?_negative hpos hn]

theorem value_int {n : Int} (h : Bounded rest) (hn : Plain (.int n)) :
    value (fuel + 1) depth ((compact (.int n)).toList ++ rest) = some (.int n, rest) := by
  obtain ⟨hlow, hhigh⟩ := hn
  rw [compact, Int.toString_eq_repr, Int.repr_eq_if]
  split
  · rw [Nat.toList_repr, value_whole h (by rw [wordLimit]; omega), Int.toNat_of_nonneg ‹_›]
  · have hpos : 0 < (-n).toNat := by omega
    rw [String.toList_append, Nat.toList_repr]
    exact (value_negative h hpos (by omega)).trans (by rw [Int.toNat_of_nonneg (by omega), Int.neg_neg])

theorem value_str (s : String) :
    value (fuel + 1) depth ((compact (.str s)).toList ++ rest) = some (.str s, rest) := by
  rw [compact, toList_quote, List.cons_append, List.append_assoc]
  unfold value
  rw [skipGap_cons (by decide)]
  simp [string?_quoted]

/-- The text of a value begins with a sign that is no blank and ends nothing. -/
theorem exists_compact_eq_cons : ∀ {j : Json}, Plain j →
    ∃ c cs, j.compact.toList = c :: cs ∧ isGap c = false ∧ c ≠ ']'
  | .null, _ => ⟨'n', _, rfl, rfl, by decide⟩
  | .bool true, _ => ⟨'t', _, rfl, rfl, by decide⟩
  | .bool false, _ => ⟨'f', _, rfl, rfl, by decide⟩
  | .int n, _ => by
    rw [compact, Int.toString_eq_repr, Int.repr_eq_if]
    split
    · obtain ⟨d, ds, hdigits, hd⟩ := exists_toDigits_eq_cons n.toNat
      refine ⟨d, ds, by rw [Nat.toList_repr, hdigits], isGap_digit hd, ?_⟩
      rintro rfl
      exact absurd hd (by decide)
    · exact ⟨'-', _, by rw [String.toList_append]; rfl, rfl, by decide⟩
  | .str s, _ => ⟨'"', _, by rw [compact, toList_quote], rfl, by decide⟩
  | .arr items, _ =>
    ⟨'[', _, by rw [compact, String.toList_append, String.toList_append]; rfl, rfl, by decide⟩
  | .obj members, _ =>
    ⟨'\x7b', _, by rw [compact, String.toList_append, String.toList_append]; rfl, rfl, by decide⟩

/-! ## 5. Arrays and objects -/

/-- Texts with commas between them. -/
def commas (l : List String) : Rest := (",".intercalate l).toList

theorem commas_singleton (t : String) : commas [t] = t.toList := by
  simp [commas]

theorem commas_cons_cons (t u : String) (l : List String) :
    commas (t :: u :: l) = t.toList ++ ',' :: commas (u :: l) := by
  simp [commas, String.toList_intercalate]

theorem entries_foldl : ∀ (l : List (String × Json)) (m : SortedMap String Json),
    (l.foldl (fun m e => m.insert e.1 e.2) m).entries =
      l.foldl (fun acc e => SortedMap.insertEntry e.1 e.2 acc) m.entries
  | [], _ => rfl
  | e :: l, m => entries_foldl l (m.insert e.1 e.2)

theorem object_eq (members : List (String × Json)) :
    Json.object members = .obj (SortedMap.ofList members).entries :=
  congrArg Json.obj (entries_foldl members .empty).symm

theorem object_of_sorted {members : List (String × Json)}
    (h : members.Pairwise fun a b => compare a.1 b.1 = .lt) : Json.object members = .obj members := by
  rw [object_eq, SortedMap.entries_ofList_of_perm (.refl _) h]

/-- The value comes back from its text, if it is not too deep. -/
def ComesBack (j : Json) : Prop :=
  ∀ fuel depth rest, Bounded rest → 1 ≤ depth → 3 * j.compact.toList.length ≤ fuel →
    value fuel depth (j.compact.toList ++ rest) =
      if j.nesting < depth then some (j, rest) else none

/-- So do the items of an array, behind those that were read. -/
def ItemsComeBack (items : List Json) : Prop :=
  ∀ fuel depth done rest, 1 ≤ depth → 3 * (commas (compactItems items)).length + 1 ≤ fuel →
    moreItems fuel depth done (commas (compactItems items) ++ ']' :: rest) =
      if itemsNesting items < depth then some (.arr (done.reverse ++ items), rest) else none

/-- So do the members of an object. -/
def MembersComeBack (members : List (String × Json)) : Prop :=
  ∀ fuel depth done rest, 1 ≤ depth → 3 * (commas (compactMembers members)).length + 1 ≤ fuel →
    moreMembers fuel depth done (commas (compactMembers members) ++ '\x7d' :: rest) =
      if membersNesting members < depth then
        some (Json.object (done.reverse ++ members), rest)
      else none

theorem itemsComeBack_singleton {j : Json} (h : ComesBack j) : ItemsComeBack [j] := by
  intro fuel depth done rest hdepth hfuel
  rw [compactItems, compactItems, commas_singleton] at hfuel ⊢
  obtain ⟨fuel, rfl⟩ : ∃ n, fuel = n + 1 := ⟨fuel - 1, by omega⟩
  rw [moreItems, h fuel depth _ (bounded_cons (by simp)) hdepth (by omega)]
  by_cases hnesting : j.nesting < depth
  · rw [if_pos hnesting, if_pos (by simpa [itemsNesting] using hnesting)]
    simp [skipGap_cons (show isGap ']' = false by decide)]
  · rw [if_neg hnesting, if_neg (by simpa [itemsNesting] using hnesting)]

theorem itemsComeBack_cons {j k : Json} {items : List Json} (h : ComesBack j)
    (hrest : ItemsComeBack (k :: items)) : ItemsComeBack (j :: k :: items) := by
  intro fuel depth done rest hdepth hfuel
  rw [compactItems, compactItems, commas_cons_cons, ← compactItems] at hfuel ⊢
  rw [List.length_append, List.length_cons] at hfuel
  obtain ⟨fuel, rfl⟩ : ∃ n, fuel = n + 1 := ⟨fuel - 1, by omega⟩
  rw [moreItems, List.append_assoc, List.cons_append,
    h fuel depth _ (bounded_cons (by simp)) hdepth (by omega)]
  have hmax : itemsNesting (j :: k :: items) = max j.nesting (itemsNesting (k :: items)) := rfl
  by_cases hnesting : j.nesting < depth
  · rw [if_pos hnesting]
    simp only [skipGap_cons (show isGap ',' = false by decide)]
    rw [hrest fuel depth (j :: done) rest hdepth (by omega)]
    by_cases hnestings : itemsNesting (k :: items) < depth
    · rw [if_pos hnestings, if_pos (by rw [hmax]; omega)]
      simp
    · rw [if_neg hnestings, if_neg (by rw [hmax]; omega)]
  · rw [if_neg hnesting, if_neg (by rw [hmax]; omega)]

theorem comesBack_arr {items : List Json} (hplain : PlainItems items)
    (hitems : items ≠ [] → ItemsComeBack items) : ComesBack (.arr items) := by
  intro fuel depth rest _ hdepth hfuel
  have htext : (compact (.arr items)).toList = '[' :: (commas (compactItems items) ++ [']']) := by
    rw [compact, String.toList_append, String.toList_append]
    rfl
  rw [htext, List.cons_append, List.append_assoc, List.singleton_append]
  rw [htext, List.length_cons, List.length_append, List.length_singleton] at hfuel
  obtain ⟨fuel, rfl⟩ : ∃ n, fuel = n + 2 := ⟨fuel - 2, by omega⟩
  rw [value, skipGap_cons (by decide)]
  simp only
  by_cases hlevel : depth ≤ 1
  · rw [if_pos hlevel, if_neg (by rw [nesting]; omega)]
  rw [if_neg hlevel, itemsFrom]
  cases items with
  | nil =>
    rw [if_pos (by simp [nesting, itemsNesting]; omega)]
    rfl
  | cons j items =>
    -- the first sign of an item is not the bracket that would end the array
    obtain ⟨c, cs, hcs, hgap, hend⟩ : ∃ c cs, commas (compactItems (j :: items)) = c :: cs ∧
        isGap c = false ∧ c ≠ ']' := by
      obtain ⟨c, cs, hcs, hgap, hend⟩ := exists_compact_eq_cons hplain.1
      cases items with
      | nil => exact ⟨c, cs, (commas_singleton _).trans hcs, hgap, hend⟩
      | cons => exact ⟨c, _, (commas_cons_cons _ _ _).trans (by rw [hcs]; rfl), hgap, hend⟩
    have hmore := hitems (List.cons_ne_nil _ _) fuel (depth - 1) [] rest (by omega) (by omega)
    rw [hcs, List.cons_append] at hmore ⊢
    rw [skipGap_cons hgap]
    split
    · rename_i heq
      exact absurd (List.cons.inj heq).1 hend
    · rw [hmore]
      by_cases hnestings : itemsNesting (j :: items) < depth - 1
      · rw [if_pos hnestings, if_pos (by rw [nesting]; omega)]
        rfl
      · rw [if_neg hnestings, if_neg (by rw [nesting]; omega)]

/-- The text of a member. -/
def memberText (m : String × Json) : String := quote m.1 ++ ":" ++ m.2.compact

theorem toList_memberText (m : String × Json) :
    (memberText m).toList =
      '"' :: (m.1.toList.flatMap escapeChar ++ '"' :: ':' :: m.2.compact.toList) := by
  simp [memberText, toList_quote]

theorem compactMembers_cons (m : String × Json) (members : List (String × Json)) :
    compactMembers (m :: members) = memberText m :: compactMembers members := rfl

/-- A member whose text is followed by something that a value can end before. -/
theorem moreMembers_memberText {m : String × Json} (h : ComesBack m.2) {fuel depth : Nat}
    (done : List (String × Json)) {rest : Rest} (hrest : Bounded rest) (hdepth : 1 ≤ depth)
    (hfuel : 3 * (memberText m).toList.length ≤ fuel) :
    moreMembers (fuel + 1) depth done ((memberText m).toList ++ rest) =
      if m.2.nesting < depth then
        match skipGap rest with
        | ',' :: rest => moreMembers fuel depth (m :: done) rest
        | '\x7d' :: rest => some (Json.object (m :: done).reverse, rest)
        | _ => none
      else none := by
  have htext : (memberText m).toList ++ rest =
      '"' :: (m.1.toList.flatMap escapeChar ++ '"' :: ':' :: (m.2.compact.toList ++ rest)) := by
    simp [toList_memberText]
  have hlength : m.2.compact.toList.length ≤ (memberText m).toList.length := by
    rw [toList_memberText]
    simp only [List.length_cons, List.length_append]
    omega
  rw [htext, moreMembers, skipGap_cons (by decide)]
  simp only [string?_quoted]
  rw [skipGap_cons (by decide)]
  simp only [h fuel depth rest hrest hdepth (by omega)]
  by_cases hnesting : m.2.nesting < depth
  · rw [if_pos hnesting]
    exact (if_pos hnesting).symm
  · rw [if_neg hnesting]
    exact (if_neg hnesting).symm

theorem membersComeBack_singleton {m : String × Json} (h : ComesBack m.2) :
    MembersComeBack [m] := by
  intro fuel depth done rest hdepth hfuel
  rw [compactMembers_cons, compactMembers, commas_singleton] at hfuel ⊢
  obtain ⟨fuel, rfl⟩ : ∃ n, fuel = n + 1 := ⟨fuel - 1, by omega⟩
  rw [moreMembers_memberText h done (bounded_cons (by simp)) hdepth (by omega),
    skipGap_cons (by decide)]
  have hmax : membersNesting [m] = m.2.nesting := Nat.max_zero _
  rw [hmax, ← List.reverse_cons]
  rfl

theorem membersComeBack_cons {m n : String × Json} {members : List (String × Json)}
    (h : ComesBack m.2) (hrest : MembersComeBack (n :: members)) :
    MembersComeBack (m :: n :: members) := by
  intro fuel depth done rest hdepth hfuel
  rw [compactMembers_cons, compactMembers_cons, commas_cons_cons, ← compactMembers_cons] at hfuel ⊢
  rw [List.length_append, List.length_cons] at hfuel
  obtain ⟨fuel, rfl⟩ : ∃ n, fuel = n + 1 := ⟨fuel - 1, by omega⟩
  rw [List.append_assoc, List.cons_append,
    moreMembers_memberText h done (bounded_cons (by simp)) hdepth (by omega),
    skipGap_cons (by decide)]
  simp only
  rw [hrest fuel depth (m :: done) rest hdepth (by omega)]
  have hmax : membersNesting (m :: n :: members) =
      max m.2.nesting (membersNesting (n :: members)) := rfl
  by_cases hnesting : m.2.nesting < depth
  · by_cases hnestings : membersNesting (n :: members) < depth
    · rw [if_pos hnesting, if_pos hnestings, if_pos (by rw [hmax]; omega)]
      simp
    · rw [if_pos hnesting, if_neg hnestings, if_neg (by rw [hmax]; omega)]
  · rw [if_neg hnesting, if_neg (by rw [hmax]; omega)]

theorem comesBack_obj {members : List (String × Json)}
    (hsorted : members.Pairwise fun a b => compare a.1 b.1 = .lt)
    (hmembers : members ≠ [] → MembersComeBack members) : ComesBack (.obj members) := by
  intro fuel depth rest _ hdepth hfuel
  have htext : (compact (.obj members)).toList =
      '\x7b' :: (commas (compactMembers members) ++ ['\x7d']) := by
    rw [compact, String.toList_append, String.toList_append]
    rfl
  rw [htext, List.cons_append, List.append_assoc, List.singleton_append]
  rw [htext, List.length_cons, List.length_append, List.length_singleton] at hfuel
  obtain ⟨fuel, rfl⟩ : ∃ n, fuel = n + 2 := ⟨fuel - 2, by omega⟩
  rw [value, skipGap_cons (by decide)]
  simp only
  by_cases hlevel : depth ≤ 1
  · rw [if_pos hlevel, if_neg (by rw [nesting]; omega)]
  rw [if_neg hlevel, membersFrom]
  cases members with
  | nil =>
    rw [if_pos (by simp [nesting, membersNesting]; omega)]
    rfl
  | cons m members =>
    obtain ⟨cs, hcs⟩ : ∃ cs, commas (compactMembers (m :: members)) = '"' :: cs := by
      cases members with
      | nil => exact ⟨_, (commas_singleton _).trans (toList_memberText m)⟩
      | cons => exact ⟨_, (commas_cons_cons _ _ _).trans (by rw [← memberText, toList_memberText]; rfl)⟩
    have hmore := hmembers (List.cons_ne_nil _ _) fuel (depth - 1) [] rest (by omega) (by omega)
    rw [hcs, List.cons_append] at hmore ⊢
    rw [skipGap_cons (by decide)]
    split
    · rename_i heq
      exact absurd (List.cons.inj heq).1 (by decide)
    · rw [hmore, List.reverse_nil, List.nil_append, object_of_sorted hsorted]
      by_cases hnestings : membersNesting (m :: members) < depth - 1
      · rw [if_pos hnestings, if_pos (by rw [nesting]; omega)]
      · rw [if_neg hnestings, if_neg (by rw [nesting]; omega)]

/-! ## 6. All values -/

/-- A value without levels comes back on every level. -/
theorem comesBack_flat {j : Json} (h : Plain j) (hflat : j.nesting = 0)
    (hvalue : ∀ {fuel depth : Nat} {rest : Rest}, Bounded rest →
      value (fuel + 1) depth (j.compact.toList ++ rest) = some (j, rest)) : ComesBack j := by
  intro fuel depth rest hrest hdepth hfuel
  obtain ⟨c, cs, hcs, -⟩ := exists_compact_eq_cons h
  rw [hcs, List.length_cons] at hfuel
  obtain ⟨fuel, rfl⟩ : ∃ n, fuel = n + 1 := ⟨fuel - 1, by omega⟩
  rw [if_pos (by omega), hvalue hrest]

mutual

theorem comesBack : ∀ {j : Json}, Plain j → ComesBack j
  | .null, h => comesBack_flat h rfl fun _ => value_null
  | .bool b, h => comesBack_flat h rfl fun _ => value_bool b
  | .int _, h => comesBack_flat h rfl fun hrest => value_int hrest h
  | .str s, h => comesBack_flat h rfl fun _ => value_str s
  | .arr _, h => comesBack_arr h fun hne => itemsComeBack hne h
  | .obj _, h => comesBack_obj h.1 fun hne => membersComeBack hne h.2

theorem itemsComeBack : ∀ {items : List Json}, items ≠ [] → PlainItems items → ItemsComeBack items
  | [_], _, h => itemsComeBack_singleton (comesBack h.1)
  | _ :: _ :: _, _, h =>
    itemsComeBack_cons (comesBack h.1) (itemsComeBack (List.cons_ne_nil _ _) h.2)

theorem membersComeBack : ∀ {members : List (String × Json)}, members ≠ [] →
    PlainMembers members → MembersComeBack members
  | [(_, _)], _, h => membersComeBack_singleton (comesBack h.1)
  | (_, _) :: (_, _) :: _, _, h =>
    membersComeBack_cons (comesBack h.1) (membersComeBack (List.cons_ne_nil _ _) h.2)

end

/-- **A plain value comes back from its text exactly if it is not too deep.** -/
theorem value_compact {j : Json} (h : Plain j) {rest : Rest} (hrest : Bounded rest) {depth : Nat}
    (hdepth : 1 ≤ depth) :
    value (enough (j.compact.toList ++ rest)) depth (j.compact.toList ++ rest) =
      if j.nesting < depth then some (j, rest) else none := by
  refine comesBack h _ _ _ hrest hdepth ?_
  rw [enough, List.length_append]
  omega

/-- So it does from a text that holds nothing else. -/
theorem parse_compact {j : Json} (h : Plain j) :
    parse j.compact = if j.nesting < maxDepth then some j else none := by
  have hvalue := value_compact h bounded_nil (show 1 ≤ maxDepth by decide)
  rw [List.append_nil] at hvalue
  unfold parse
  simp only [hvalue]
  by_cases hnesting : j.nesting < maxDepth
  · rw [if_pos hnesting, if_pos hnesting]
    rfl
  · rw [if_neg hnesting, if_neg hnesting]

end Reader

end Converge.Json
