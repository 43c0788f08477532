import Converge.Proofs.Text.Digits
import Converge.Toml.Quoting

/-!
# Texts read back from settings files

A text is written in the plainest of four ways that can hold it. Each way is read back from its first
quote on, if no quote of the same kind follows.

* `exists_escapes`: an escape is read as its character, and no escape is taken for a line that goes on;
* `closing?_eq_none`, `Closes.closing?`: three quotes end a text over several lines, and the quotes of
  the text just before them are told apart from them;
* `basic?_escaped`, `literal?_plain`, `basicLines?_escaped`, `literalLines?_plain`: the four ways;
* `read?_basic` and its three siblings: each way from its first quote on;
* **`read?_write`**: every text comes back.
-/

namespace Converge.Toml.Quoting

open Text (Halts halts_cons)

/-! ## 1. Escapes -/

theorem hex4_read (n : Nat) (h : n < 0x20 ∨ n = 0x7F) (rest : List Char) :
    escape? ('u' :: (hex4 n ++ rest)) = some (Char.ofNat n, rest) := by
  have hread : ∀ n < 0x80, n < 0x20 ∨ n = 0x7F →
      (hex4 n).length = 4 ∧ codePoint? (hex4 n) = some (Char.ofNat n) := by decide
  obtain ⟨hlength, hpoint⟩ := hread n (by omega) h
  have htake : (hex4 n ++ rest).take 4 = hex4 n := by
    rw [← hlength, List.take_left]
  have hdrop : (hex4 n ++ rest).drop 4 = rest := by
    rw [← hlength, List.drop_left]
  simp [escape?, htake, hdrop, hlength, hpoint]

/-- The escape of a character stands behind a backslash, begins with no blank and no line break, and
    is read as the character. -/
structure Escapes (c : Char) (signs : List Char) : Prop where
  read : ∀ rest, escape? (signs ++ rest) = some (c, rest)
  alone : ∀ rest, joinedLine? (signs ++ rest) = none

theorem exists_escapes {lines : Bool} {c : Char} {signs : List Char}
    (h : escapeOf? lines c = some signs) : ∃ e, signs = '\\' :: e ∧ Escapes c e := by
  unfold escapeOf? at h
  split at h
  · cases h
    exact ⟨['b'], rfl, fun _ => rfl, fun _ => rfl⟩
  · cases h
    exact ⟨['t'], rfl, fun _ => rfl, fun _ => rfl⟩
  · split at h
    · cases h
    · cases h
      exact ⟨['n'], rfl, fun _ => rfl, fun _ => rfl⟩
  · cases h
    exact ⟨['f'], rfl, fun _ => rfl, fun _ => rfl⟩
  · cases h
    exact ⟨['r'], rfl, fun _ => rfl, fun _ => rfl⟩
  · cases h
    exact ⟨['\\'], rfl, fun _ => rfl, fun _ => rfl⟩
  · split at h
    · rename_i hcontrol
      have hcode : c.toNat < 0x20 ∨ c.toNat = 0x7F := by
        simp only [isControl, Bool.or_eq_true, Bool.and_eq_true, decide_eq_true_eq, beq_iff_eq]
          at hcontrol
        omega
      cases h
      refine ⟨'u' :: hex4 c.toNat, rfl, fun rest => ?_, fun rest => rfl⟩
      rw [List.cons_append, hex4_read _ hcode, Char.ofNat_toNat]
    · cases h

/-- A character without an escape is read as itself. -/
theorem plain_of_escapeOf? {lines : Bool} {c : Char} (h : escapeOf? lines c = none) :
    c ≠ '\\' ∧ c ≠ '\r' ∧ (isControl c = false ∨ lines = true ∧ c = '\n') := by
  unfold escapeOf? at h
  split at h
  iterate 2 · cases h
  · split at h
    · exact ⟨by decide, by decide, .inr ⟨‹_›, rfl⟩⟩
    · cases h
  iterate 3 · cases h
  · split at h
    · cases h
    · rename_i hslash hcontrol
      exact ⟨hslash, by assumption, .inl (by simpa using hcontrol)⟩

/-! ## 2. Texts on one line -/

theorem escaped_quote_held {lines : Bool} {limit run : Nat} (h : run < limit) (cs : List Char) :
    escaped lines limit run ('"' :: cs) = '"' :: escaped lines limit (run + 1) cs := by
  rw [escaped, if_pos (beq_self_eq_true _), if_pos h]

theorem escaped_quote {lines : Bool} {limit run : Nat} (h : limit ≤ run) (cs : List Char) :
    escaped lines limit run ('"' :: cs) = '\\' :: '"' :: escaped lines limit 0 cs := by
  rw [escaped, if_pos (beq_self_eq_true _), if_neg (by omega)]

theorem escaped_sign {lines : Bool} {limit run : Nat} {c : Char} (hc : c ≠ '"') {e : List Char}
    (he : escapeOf? lines c = some ('\\' :: e)) (cs : List Char) :
    escaped lines limit run (c :: cs) = '\\' :: (e ++ escaped lines limit 0 cs) := by
  rw [escaped, if_neg (by simpa using hc), he]
  rfl

theorem escaped_plain {lines : Bool} {limit run : Nat} {c : Char} (hc : c ≠ '"')
    (he : escapeOf? lines c = none) (cs : List Char) :
    escaped lines limit run (c :: cs) = c :: escaped lines limit 0 cs := by
  rw [escaped, if_neg (by simpa using hc), he]

/-- A text with all its quotes escaped. -/
theorem basic?_escaped : ∀ (cs : List Char) (fuel : Nat) (done rest : List Char), cs.length < fuel →
    basic? fuel done (escaped false 0 0 cs ++ '"' :: rest) =
      some (String.ofList (done.reverse ++ cs), rest)
  | [], fuel + 1, done, rest, _ => by simp [escaped, basic?]
  | c :: cs, fuel + 1, done, rest, h => by
    have ih := basic?_escaped cs fuel (c :: done) rest (by simpa using h)
    rw [List.reverse_cons, List.append_assoc, List.singleton_append] at ih
    rw [← ih]
    by_cases hc : c = '"'
    · subst hc
      rw [escaped_quote (Nat.le_refl 0), List.cons_append, basic?]
      exact congrArg _ rfl
    · cases he : escapeOf? false c with
      | some signs =>
        obtain ⟨e, rfl, hread, -⟩ := exists_escapes he
        rw [escaped_sign hc he, List.cons_append, basic?, List.append_assoc, hread]
      | none =>
        obtain ⟨hslash, -, hcontrol | ⟨hlines, -⟩⟩ := plain_of_escapeOf? he
        · rw [escaped_plain hc he, List.cons_append, basic?, if_neg (by simp [hcontrol])]
          · exact hc
          · exact hslash
        · cases hlines

/-- A text as it stands. -/
theorem literal?_plain : ∀ (cs done rest : List Char), (∀ c ∈ cs, c ≠ '\'' ∧ isControl c = false) →
    literal? done (cs ++ '\'' :: rest) = some (String.ofList (done.reverse ++ cs), rest)
  | [], done, rest, _ => by simp [literal?]
  | c :: cs, done, rest, h => by
    obtain ⟨hc, hcontrol⟩ := h c List.mem_cons_self
    rw [List.cons_append, literal?, if_neg (by simp [hcontrol]),
      literal?_plain cs (c :: done) rest fun x hx => h x (List.mem_cons_of_mem _ hx)]
    · simp
    · exact hc

/-! ## 3. The end of a text over several lines -/

/-- How many neighbours at the front are `q`. -/
def lead (q : Char) (cs : List Char) : Nat := (cs.takeWhile (· == q)).length

variable {q : Char}

theorem lead_cons_self (cs : List Char) : lead q (q :: cs) = lead q cs + 1 := by
  simp [lead]

theorem lead_cons_of_ne {c : Char} (hc : c ≠ q) (cs : List Char) : lead q (c :: cs) = 0 := by
  simp [lead, hc]

/-- Fewer than three quotes do not end a text. -/
theorem closing?_eq_none : ∀ {cs : List Char}, lead q cs < 3 → closing? q cs = none
  | [], _ | [_], _ | [_, _], _ => rfl
  | a :: b :: c :: rest, h => by
    rw [closing?, if_neg]
    intro hall
    simp only [Bool.and_eq_true, beq_iff_eq] at hall
    obtain ⟨⟨rfl, rfl⟩, rfl⟩ := hall
    rw [lead_cons_self, lead_cons_self, lead_cons_self] at h
    omega

/-- Three quotes end a text, and one or two before them belong to it. -/
theorem closing?_quotes {n : Nat} (hn : n ≤ 2) {rest : List Char} (h : Halts (· == q) rest) :
    closing? q (List.replicate n q ++ q :: q :: q :: rest) = some (n, rest) := by
  have hlead : ∀ n, (List.replicate n q ++ rest).takeWhile (· == q) = List.replicate n q := fun n =>
    Text.takeWhile_run (by simp) h
  have hshift : List.replicate n q ++ q :: q :: q :: rest =
      q :: q :: q :: (List.replicate n q ++ rest) := by
    match n, hn with
    | 0, _ | 1, _ | 2, _ => rfl
  have hmin : min 2 n = n := Nat.min_eq_right hn
  rw [hshift, closing?, if_pos (by simp), hlead]
  simp [hmin]

/-- A text of quotes only, short enough to stand before the three quotes that end it, `run` quotes
    behind others. -/
def Closes (q : Char) (run : Nat) (cs : List Char) : Prop :=
  cs.length + run ≤ 2 ∧ ∀ c ∈ cs, c = q

instance (q : Char) (run : Nat) (cs : List Char) : Decidable (Closes q run cs) :=
  inferInstanceAs (Decidable (_ ∧ _))

theorem Closes.eq_replicate {run : Nat} {cs : List Char} (h : Closes q run cs) :
    cs = List.replicate cs.length q := List.eq_replicate_iff.mpr ⟨rfl, h.2⟩

/-- The end is found behind the last quotes of a text. -/
theorem Closes.closing? {run : Nat} {cs rest : List Char} (h : Closes q run cs)
    (hrest : Halts (· == q) rest) :
    ∃ n, Quoting.closing? q (cs ++ q :: q :: q :: rest) = some (n, rest) ∧
      List.replicate n q = cs.reverse := by
  have hn : cs.length ≤ 2 := by
    have := h.1
    omega
  refine ⟨cs.length, ?_, ?_⟩
  · have hclosing := closing?_quotes hn hrest
    rwa [← h.eq_replicate] at hclosing
  · conv_rhs => rw [h.eq_replicate]
    rw [List.reverse_replicate]

theorem closes_cons {run : Nat} {cs : List Char} :
    Closes q run (q :: cs) ↔ Closes q (run + 1) cs := by
  simp [Closes, Nat.add_assoc, Nat.add_comm 1 run]

/-- Of the text that is written, fewer than three quotes stand together before its end. -/
theorem lead_escaped : ∀ (cs : List Char) {run : Nat} (rest : List Char), run ≤ 2 →
    ¬ Closes '"' run cs → run + lead '"' (escaped true 2 run cs ++ rest) ≤ 2
  | [], run, rest, hrun, h => absurd ⟨by simpa using hrun, by simp⟩ h
  | c :: cs, run, rest, hrun, h => by
    by_cases hc : c = '"'
    · subst hc
      rw [closes_cons] at h
      by_cases hlimit : run < 2
      · have ih := lead_escaped cs rest (by omega) h
        rw [escaped_quote_held hlimit, List.cons_append, lead_cons_self]
        omega
      · rw [escaped_quote (by omega), List.cons_append, lead_cons_of_ne (by decide)]
        omega
    · cases he : escapeOf? true c with
      | some signs =>
        obtain ⟨e, rfl, -⟩ := exists_escapes he
        rw [escaped_sign hc he, List.cons_append, lead_cons_of_ne (by decide)]
        omega
      | none =>
        rw [escaped_plain hc he, List.cons_append, lead_cons_of_ne hc]
        omega

theorem escaped_of_closes : ∀ {cs : List Char} {run : Nat}, Closes '"' run cs →
    escaped true 2 run cs = cs
  | [], _, _ => rfl
  | c :: cs, run, h => by
    obtain rfl := h.2 c List.mem_cons_self
    have hlimit : run < 2 := by
      have := h.1
      rw [List.length_cons] at this
      omega
    rw [escaped_quote_held hlimit, escaped_of_closes (closes_cons.mp h)]

/-! ## 4. Texts over several lines -/

/-- A text whose quotes are escaped where a third one would stand beside two. -/
theorem basicLines?_escaped : ∀ (cs : List Char) (fuel run : Nat) (done rest : List Char),
    run ≤ 2 → cs.length < fuel → Halts (· == '"') rest →
    basicLines? fuel done (escaped true 2 run cs ++ '"' :: '"' :: '"' :: rest) =
      some (String.ofList (done.reverse ++ cs), rest)
  | cs, fuel + 1, run, done, rest, hrun, hfuel, hrest => by
    by_cases hcloses : Closes '"' run cs
    · obtain ⟨n, hclosing, hquotes⟩ := hcloses.closing? hrest
      rw [escaped_of_closes hcloses]
      unfold basicLines?
      rw [hclosing]
      simp [hquotes]
    have hnone := closing?_eq_none (Nat.lt_succ_of_le (Nat.le_trans (Nat.le_add_left _ run)
      (lead_escaped cs ('"' :: '"' :: '"' :: rest) hrun hcloses)))
    match cs with
    | [] => exact absurd ⟨by simpa using hrun, by simp⟩ hcloses
    | c :: cs =>
      have ih := fun run (hrun : run ≤ 2) =>
        basicLines?_escaped cs fuel run (c :: done) rest hrun (by simpa using hfuel) hrest
      rw [List.reverse_cons, List.append_assoc, List.singleton_append] at ih
      unfold basicLines?
      rw [hnone]
      by_cases hc : c = '"'
      · subst hc
        by_cases hlimit : run < 2
        · rw [escaped_quote_held hlimit, List.cons_append]
          exact ih (run + 1) hlimit
        · rw [escaped_quote (by omega), List.cons_append]
          exact ih 0 (Nat.zero_le _)
      · cases he : escapeOf? true c with
        | some signs =>
          obtain ⟨e, rfl, hread, halone⟩ := exists_escapes he
          rw [escaped_sign hc he, List.cons_append, List.append_assoc]
          simp only [halone, hread]
          exact ih 0 (Nat.zero_le _)
        | none =>
          obtain ⟨hslash, hreturn, hplain⟩ := plain_of_escapeOf? he
          have hheld : (isControl c && c != '\n') = false := by
            rcases hplain with h | ⟨-, h⟩ <;> simp [h]
          rw [escaped_plain hc he, List.cons_append]
          simp only
          split
          · rename_i heq
            exact absurd heq (List.cons_ne_nil _ _)
          · rename_i heq
            exact absurd (List.cons.inj heq).1 hslash
          · rename_i heq
            exact absurd (List.cons.inj heq).1 hreturn
          · rename_i heq
            obtain ⟨rfl, rfl⟩ := List.cons.inj heq
            rw [if_neg (by simp [hheld])]
            exact ih 0 (Nat.zero_le _)

theorem exists_of_closing? {cs : List Char} {found : Nat × List Char}
    (h : closing? q cs = some found) : ∃ rest, cs = [q, q, q] ++ rest := by
  match cs, h with
  | a :: b :: c :: rest, h =>
    rw [closing?] at h
    split at h
    · rename_i hall
      simp only [Bool.and_eq_true, beq_iff_eq] at hall
      obtain ⟨⟨rfl, rfl⟩, rfl⟩ := hall
      exact ⟨rest, rfl⟩
    · cases h

/-- A text without three quotes together is not ended before its end. -/
theorem closing?_plain {cs : List Char} (rest : List Char) (hthree : ¬ [q, q, q] <:+: cs)
    (hcloses : ¬ Closes q 0 cs) : closing? q (cs ++ rest) = none := by
  cases hclosing : closing? q (cs ++ rest) with
  | none => rfl
  | some _ =>
    exfalso
    obtain ⟨behind, hbehind⟩ := exists_of_closing? hclosing
    rcases List.append_eq_append_iff.mp hbehind with ⟨more, hmore, -⟩ | ⟨more, hmore, -⟩
    · cases more with
      | nil => exact hthree ⟨[], [], by simpa using hmore⟩
      | cons c more =>
        have hlength := congrArg List.length hmore
        simp only [List.length_cons, List.length_nil, List.length_append] at hlength
        refine hcloses ⟨by omega, fun x hx => ?_⟩
        have hx : x ∈ [q, q, q] := hmore ▸ List.mem_append_left _ hx
        simpa using hx
    · exact hthree ⟨[], more, by rw [hmore]; rfl⟩

/-- A text as it stands, in which no three quotes stand together. -/
theorem literalLines?_plain : ∀ (cs : List Char) (fuel : Nat) (done rest : List Char),
    cs.length < fuel → ¬ ['\'', '\'', '\''] <:+: cs → (∀ c ∈ cs, needsEscape c = false) →
    Halts (· == '\'') rest →
    literalLines? fuel done (cs ++ '\'' :: '\'' :: '\'' :: rest) =
      some (String.ofList (done.reverse ++ cs), rest)
  | cs, fuel + 1, done, rest, hfuel, hthree, hplain, hrest => by
    by_cases hcloses : Closes '\'' 0 cs
    · obtain ⟨n, hclosing, hquotes⟩ := hcloses.closing? hrest
      unfold literalLines?
      rw [hclosing]
      simp [hquotes]
    have hnone := closing?_plain ('\'' :: '\'' :: '\'' :: rest) hthree hcloses
    match cs with
    | [] => exact absurd ⟨by decide, by simp⟩ hcloses
    | c :: cs =>
      have ih := literalLines?_plain cs fuel (c :: done) rest (by simpa using hfuel)
        (fun h => hthree (h.trans (List.suffix_cons c cs).isInfix))
        (fun x hx => hplain x (List.mem_cons_of_mem _ hx)) hrest
      have hheld : needsEscape c = false := hplain c List.mem_cons_self
      have hreturn : c ≠ '\r' := by
        rintro rfl
        exact absurd hheld (by decide)
      unfold literalLines?
      rw [hnone]
      simp only [List.cons_append]
      split
      · rename_i heq
        exact absurd heq (List.cons_ne_nil _ _)
      · rename_i heq
        exact absurd (List.cons.inj heq).1 hreturn
      · rename_i heq
        obtain ⟨rfl, rfl⟩ := List.cons.inj heq
        rw [if_neg (by simpa [needsEscape] using hheld), ih]
        simp

/-! ## 5. The choice -/

/-- Counts neighbours that are `q`: the greatest number so far, and the number up to here. -/
def count (q : Char) (acc : Nat × Nat) (c : Char) : Nat × Nat :=
  (max acc.1 (if c == q then acc.2 + 1 else 0), if c == q then acc.2 + 1 else 0)

theorem le_foldl_count : ∀ (cs : List Char) (acc : Nat × Nat), acc.1 ≤ (cs.foldl (count q) acc).1
  | [], _ => Nat.le_refl _
  | c :: cs, acc => Nat.le_trans (Nat.le_max_left _ _) (le_foldl_count cs (count q acc c))

theorem foldl_count_replicate : ∀ (k : Nat) (acc : Nat × Nat), acc.2 ≤ acc.1 →
    acc.2 + k ≤ ((List.replicate k q).foldl (count q) acc).1
  | 0, _, h => h
  | k + 1, acc, h => by
    have hcount : count q acc q = (max acc.1 (acc.2 + 1), acc.2 + 1) := by simp [count]
    have ih := foldl_count_replicate k (count q acc q) (by rw [hcount]; exact Nat.le_max_right _ _)
    rw [List.replicate_succ, List.foldl_cons]
    rw [hcount] at ih ⊢
    omega

/-- Neighbours that are `q` are counted. -/
theorem le_longestRun {k : Nat} {cs : List Char} (h : List.replicate k q <:+: cs) :
    k ≤ longestRun q cs := by
  have hrun : ∀ (cs : List Char) (acc : Nat × Nat), acc.2 ≤ acc.1 →
      (cs.foldl (count q) acc).2 ≤ (cs.foldl (count q) acc).1 := by
    intro cs
    induction cs with
    | nil => exact fun _ h => h
    | cons c cs ih => exact fun acc _ => ih _ (Nat.le_max_right _ _)
  obtain ⟨before, behind, rfl⟩ := h
  have hreplicate := foldl_count_replicate (q := q) k (before.foldl (count q) (0, 0))
    (hrun before (0, 0) (Nat.le_refl 0))
  have hbehind := le_foldl_count (q := q) behind
    ((List.replicate k q).foldl (count q) (before.foldl (count q) (0, 0)))
  change k ≤ ((before ++ List.replicate k q ++ behind).foldl (count q) (0, 0)).1
  rw [List.foldl_append, List.foldl_append]
  omega

/-- What is written as it stands on one line has no quote and nothing to escape, and is not empty. -/
theorem literal_of_chooseWay {cs : List Char} (h : chooseWay cs = .literal) :
    cs ≠ [] ∧ ∀ c ∈ cs, c ≠ '\'' ∧ isControl c = false := by
  refine ⟨fun hnil => absurd h (by rw [hnil]; decide), ?_⟩
  unfold chooseWay at h
  simp only at h
  split at h
  · cases h
  split at h
  · rename_i hheld
    simp only [Bool.and_eq_true, Bool.not_eq_true', beq_iff_eq, List.any_eq_false,
      List.contains_eq_mem, decide_eq_false_iff_not] at hheld
    obtain ⟨⟨hescapes, hsingle⟩, hbreaks⟩ := hheld
    refine fun c hc => ⟨?_, ?_⟩
    · rintro rfl
      obtain ⟨before, behind, hsplit⟩ := List.append_of_mem hc
      have hone : List.replicate 1 '\'' <:+: cs := ⟨before, behind, by simp [hsplit]⟩
      have := le_longestRun hone
      omega
    · have hbreak : c ≠ '\n' := fun h => hbreaks (h ▸ hc)
      simpa [needsEscape, hbreak] using hescapes c hc
  · repeat' (split at h; · cases h)
    cases h

/-- What is written as it stands over several lines has no three quotes together and nothing to
    escape. -/
theorem literalLines_of_chooseWay {cs : List Char} (h : chooseWay cs = .literalLines) :
    ¬ ['\'', '\'', '\''] <:+: cs ∧ ∀ c ∈ cs, needsEscape c = false := by
  unfold chooseWay at h
  simp only at h
  iterate 3
    split at h
    · cases h
  split at h
  · rename_i hheld
    simp only [Bool.and_eq_true, Bool.not_eq_true', decide_eq_true_eq, List.any_eq_false] at hheld
    refine ⟨fun hthree => ?_, fun c hc => by simpa using hheld.1 c hc⟩
    have := le_longestRun (q := '\'') (k := 3) hthree
    omega
  · split at h <;> cases h

theorem length_le_escaped (lines : Bool) (limit : Nat) : ∀ (cs : List Char) (run : Nat),
    cs.length ≤ (escaped lines limit run cs).length
  | [], _ => Nat.zero_le _
  | c :: cs, run => by
    by_cases hc : c = '"'
    · subst hc
      by_cases hlimit : run < limit
      · have ih := length_le_escaped lines limit cs (run + 1)
        rw [escaped_quote_held hlimit]
        simpa using ih
      · have ih := length_le_escaped lines limit cs 0
        rw [escaped_quote (by omega)]
        simp only [List.length_cons]
        omega
    · have ih := length_le_escaped lines limit cs 0
      cases he : escapeOf? lines c with
      | some signs =>
        obtain ⟨e, rfl, -⟩ := exists_escapes he
        rw [escaped_sign hc he]
        simp only [List.length_cons, List.length_append]
        omega
      | none =>
        rw [escaped_plain hc he]
        simpa using ih

/-- Behind the quote that opens a text on one line stands no other quote, unless the text is empty. -/
theorem escaped_ne_quote {cs rest more : List Char}
    (h : escaped false 0 0 cs ++ '"' :: rest = '"' :: more) : cs = [] := by
  cases cs with
  | nil => rfl
  | cons c cs =>
    by_cases hc : c = '"'
    · subst hc
      rw [escaped_quote (Nat.le_refl 0)] at h
      exact absurd (List.cons.inj h).1 (by decide)
    · cases he : escapeOf? false c with
      | some signs =>
        obtain ⟨e, rfl, -⟩ := exists_escapes he
        rw [escaped_sign hc he] at h
        exact absurd (List.cons.inj h).1 (by decide)
      | none =>
        rw [escaped_plain hc he] at h
        exact absurd (List.cons.inj h).1 hc

/-! ## 6. The four ways -/

theorem read?_basic (cs : List Char) {rest : List Char} (h : Halts (· == '"') rest) :
    read? (writeAs .basic cs ++ rest) = some (String.ofList cs, rest) := by
  have htext : writeAs .basic cs ++ rest = '"' :: (escaped false 0 0 cs ++ '"' :: rest) := by
    simp [writeAs]
  rw [htext]
  unfold read?
  split
  · rename_i more heq
    have hquotes := (List.cons.inj heq).2
    have hnil := escaped_ne_quote hquotes
    rw [hnil] at hquotes
    rw [(List.cons.inj hquotes).2, halts_cons] at h
    cases h
  · rename_i heq
    exact absurd (List.cons.inj heq).1 (by decide)
  · have := length_le_escaped false 0 cs 0
    rw [readOnLine?, basic?_escaped _ _ _ _ (by rw [List.length_append]; omega)]
    rfl

theorem read?_literal {cs : List Char} (hne : cs ≠ [])
    (hplain : ∀ c ∈ cs, c ≠ '\'' ∧ isControl c = false) (rest : List Char) :
    read? (writeAs .literal cs ++ rest) = some (String.ofList cs, rest) := by
  have htext : writeAs .literal cs ++ rest = '\'' :: (cs ++ '\'' :: rest) := by
    simp [writeAs]
  rw [htext]
  unfold read?
  split
  · rename_i heq
    exact absurd (List.cons.inj heq).1 (by decide)
  · rename_i more heq
    obtain ⟨c, cs, rfl⟩ := List.exists_cons_of_ne_nil hne
    have hc := (List.cons.inj (List.cons.inj heq).2).1
    exact absurd hc (hplain c List.mem_cons_self).1
  · rw [readOnLine?, literal?_plain _ _ _ hplain]
    rfl

theorem read?_basicLines (cs : List Char) {rest : List Char} (h : Halts (· == '"') rest) :
    read? (writeAs .basicLines cs ++ rest) = some (String.ofList cs, rest) := by
  have htext : writeAs .basicLines cs ++ rest =
      '"' :: '"' :: '"' :: '\n' :: (escaped true 2 0 cs ++ '"' :: '"' :: '"' :: rest) := by
    simp [writeAs]
  have := length_le_escaped true 2 cs 0
  rw [htext, read?]
  simp only [dropLineBreak, lineBreak?, Option.getD_some]
  rw [basicLines?_escaped _ _ _ _ _ (Nat.zero_le 2) (by rw [List.length_append]; omega) h]
  rfl

theorem read?_literalLines {cs : List Char} (hthree : ¬ ['\'', '\'', '\''] <:+: cs)
    (hplain : ∀ c ∈ cs, needsEscape c = false) {rest : List Char} (h : Halts (· == '\'') rest) :
    read? (writeAs .literalLines cs ++ rest) = some (String.ofList cs, rest) := by
  have htext : writeAs .literalLines cs ++ rest =
      '\'' :: '\'' :: '\'' :: '\n' :: (cs ++ '\'' :: '\'' :: '\'' :: rest) := by
    simp [writeAs]
  rw [htext, read?]
  simp only [dropLineBreak, lineBreak?, Option.getD_some]
  rw [literalLines?_plain _ _ _ _ (by rw [List.length_append]; omega) hthree hplain h]
  rfl

/-- **A text comes back from how it is written**, if no quote follows it. -/
theorem read?_write (s : String) {rest : List Char} (hdouble : Halts (· == '"') rest)
    (hsingle : Halts (· == '\'') rest) : read? (write s ++ rest) = some (s, rest) := by
  have hself : String.ofList s.toList = s := String.ofList_toList
  unfold write
  cases hway : chooseWay s.toList with
  | basic => rw [read?_basic _ hdouble, hself]
  | literal =>
    obtain ⟨hne, hplain⟩ := literal_of_chooseWay hway
    rw [read?_literal hne hplain, hself]
  | basicLines => rw [read?_basicLines _ hdouble, hself]
  | literalLines =>
    obtain ⟨hthree, hplain⟩ := literalLines_of_chooseWay hway
    rw [read?_literalLines hthree hplain hsingle, hself]

end Converge.Toml.Quoting
