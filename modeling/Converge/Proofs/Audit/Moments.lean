import Converge.Proofs.Text.Digits
import Converge.Timestamp

/-!
# Moments read back from their text

* `toDays_ofDays`: the calendar counts every day once: from the day of a count comes the count;
  `isValid_ofDays`: that day exists, the 29th of February only in leap years;
* `field?_padded`: a field filled up with zeros is read as its number;
* **`parse?_text`**: a whole second of the years 1970 to 9999 comes back from its text.
-/

namespace Converge

/-! ## 1. The calendar -/

namespace CivilDate

/-- The year of a day inside an era, and that the day lies in it: counted from March, a year has 365
    days, or 366 if the February at its end has 29. -/
theorem yearOfEra_cases (day year : Int) (hlow : 0 ≤ day) (hhigh : day < 146097)
    (hyear : year = (day - day / 1460 + day / 36524 - day / 146096) / 365) :
    0 ≤ year ∧ year < 400 ∧ 365 * year + year / 4 - year / 100 ≤ day ∧
      day ≤ 365 * year + year / 4 - year / 100 + 365 ∧
      (day = 365 * year + year / 4 - year / 100 + 365 →
        year % 4 = 3 ∧ (year % 100 = 99 → year = 399)) := by
  -- with the century and the place among four years fixed, what is left is linear
  have hcentury : day / 36524 = 0 ∨ day / 36524 = 1 ∨ day / 36524 = 2 ∨ day / 36524 = 3 ∨
      day / 36524 = 4 := by omega
  have hplace : year = 4 * (day / 1460) - 1 ∨ year = 4 * (day / 1460) ∨
      year = 4 * (day / 1460) + 1 ∨ year = 4 * (day / 1460) + 2 ∨
      year = 4 * (day / 1460) + 3 := by omega
  rcases hcentury with h | h | h | h | h <;> rcases hplace with h' | h' | h' | h' | h' <;> omega

/-- The day of a count lies in the given era, year, month and day, all counted from March. -/
structure Falls (days era year month day : Int) : Prop where
  year_range : 0 ≤ year ∧ year < 400
  month_range : 0 ≤ month ∧ month < 12
  day_range : 1 ≤ day ∧ day ≤ 31
  short : month = 1 ∨ month = 3 ∨ month = 6 ∨ month = 8 → day ≤ 30
  february : month = 11 → day ≤ 29 ∧ (day = 29 → year % 4 = 3 ∧ (year % 100 = 99 → year = 399))
  days_eq : days + 719468 = era * 146097 + (365 * year + year / 4 - year / 100) +
    ((153 * month + 2) / 5 + day - 1)
  ofDays_eq : ofDays days = ⟨year + era * 400 + (if month < 10 then 0 else 1),
    (if month < 10 then month + 3 else month - 9).toNat, day.toNat⟩

theorem exists_falls (days : Int) : ∃ era year month day, Falls days era year month day := by
  let z := days + 719468
  let era := z.fdiv 146097
  let dayOfEra := z - era * 146097
  let year := (dayOfEra - dayOfEra / 1460 + dayOfEra / 36524 - dayOfEra / 146096) / 365
  let dayOfYear := dayOfEra - (365 * year + year / 4 - year / 100)
  let month := (5 * dayOfYear + 2) / 153
  let day := dayOfYear - (153 * month + 2) / 5 + 1
  have hera : era = z / 146097 := Int.fdiv_eq_ediv_of_nonneg _ (by decide)
  obtain ⟨hyear, hyear', hlow, hhigh, hleap⟩ :=
    yearOfEra_cases dayOfEra year (by omega) (by omega) rfl
  have hmonth : (if (if month < 10 then month + 3 else month - 9) ≤ 2 then (1 : Int) else 0) =
      if month < 10 then 0 else 1 := by
    split <;> split <;> omega
  have hmonths : 0 ≤ month ∧ month < 12 := by omega
  refine ⟨era, year, month, day, ⟨hyear, hyear'⟩, hmonths, ?_, ?_, ?_, by omega, ?_⟩
  · omega
  · omega
  · omega
  · rw [← hmonth]
    rfl

/-- **The day of a count counts as it.** -/
theorem toDays_ofDays (days : Int) : (ofDays days).toDays = days := by
  obtain ⟨era, year, month, day, h⟩ := exists_falls days
  have hyear := h.year_range
  have hmonth := h.month_range
  have hdays := h.days_eq
  have hday : (day.toNat : Int) = day := Int.toNat_of_nonneg (by have := h.day_range; omega)
  have hera : (year + era * 400).fdiv 400 = era := by
    rw [Int.fdiv_eq_ediv_of_nonneg _ (by decide)]
    omega
  have hyears : year + era * 400 - era * 400 = year := by omega
  rw [h.ofDays_eq]
  unfold toDays
  by_cases hlate : month < 10
  · have hspring : ((month + 3).toNat : Int) = month + 3 := Int.toNat_of_nonneg (by omega)
    simp only [if_pos hlate, if_neg (show ¬ (month + 3).toNat ≤ 2 by omega),
      if_pos (show 2 < (month + 3).toNat by omega), hspring, hday, Int.add_zero, hera, hyears]
    omega
  · have hwinter : ((month - 9).toNat : Int) = month - 9 := Int.toNat_of_nonneg (by omega)
    simp only [if_neg hlate, if_pos (show (month - 9).toNat ≤ 2 by omega),
      if_neg (show ¬ 2 < (month - 9).toNat by omega), hwinter, hday, Int.add_sub_cancel, hera, hyears]
    omega

/-- **The day of a count exists.** -/
theorem isValid_ofDays (days : Int) : (ofDays days).isValid = true := by
  obtain ⟨era, year, month, day, h⟩ := exists_falls days
  have hyear := h.year_range
  have hday := h.day_range
  have hshort := h.short
  have hfebruary := h.february
  have hmonth : month = 0 ∨ month = 1 ∨ month = 2 ∨ month = 3 ∨ month = 4 ∨ month = 5 ∨ month = 6 ∨
      month = 7 ∨ month = 8 ∨ month = 9 ∨ month = 10 ∨ month = 11 := by
    have := h.month_range
    omega
  rw [h.ofDays_eq]
  rcases hmonth with rfl | rfl | rfl | rfl | rfl | rfl | rfl | rfl | rfl | rfl | rfl | rfl
  iterate 11
    · simp [isValid, monthLength] at hshort ⊢
      omega
  · by_cases hlast : day = 29
    · have hleap : isLeap (year + era * 400 + 1) = true := by
        simp only [isLeap, Bool.and_eq_true, Bool.or_eq_true, bne_iff_ne, beq_iff_eq]
        omega
      subst hlast
      simp [isValid, monthLength, hleap]
    · have hlength : 28 ≤ monthLength (year + era * 400 + 1) 2 := by
        unfold monthLength
        simp
        split <;> omega
      simp [isValid]
      omega

/-- The years of the counts from 1970 to 9999. -/
theorem year_ofDays {days : Int} (hlow : 0 ≤ days) (hhigh : days < 2932897) :
    0 ≤ (ofDays days).year ∧ (ofDays days).year ≤ 9999 := by
  obtain ⟨era, year, month, day, h⟩ := exists_falls days
  have hyear := h.year_range
  have hmonth := h.month_range
  have hday := h.day_range
  have hdays := h.days_eq
  rw [h.ofDays_eq]
  simp only
  split <;> omega

theorem month_ofDays (days : Int) : (ofDays days).month < 100 := by
  have h := isValid_ofDays days
  simp only [isValid, Bool.and_eq_true, decide_eq_true_eq] at h
  omega

theorem day_ofDays (days : Int) : (ofDays days).day < 100 := by
  obtain ⟨era, year, month, day, h⟩ := exists_falls days
  have hday := h.day_range
  rw [h.ofDays_eq]
  simp only
  omega

end CivilDate

/-! ## 2. Fields -/

namespace Timestamp

variable {width n : Nat} {rest : List Char}

theorem isDigit_of_mem_padded (width n : Nat) : ∀ c ∈ padded width n, c.isDigit = true := by
  intro c hc
  rcases List.mem_append.mp hc with hc | hc
  · obtain ⟨-, rfl⟩ := List.mem_replicate.mp hc
    rfl
  · exact Text.isDigit_of_mem c hc

theorem length_padded (hwidth : 0 < width) (h : n < Nat.pow 10 width) :
    (padded width n).length = width := by
  have hle : (Nat.toDigits 10 n).length ≤ width :=
    (Nat.length_toDigits_le_iff (by decide) hwidth).mpr h
  rw [padded, List.length_append, List.length_replicate]
  omega

theorem number_padded : number (padded width n) = n := by
  have hzeros : ∀ k, (List.replicate k '0').foldl (fun n c => n * 10 + digitValue c) 0 = 0 := by
    intro k
    induction k with
    | zero => rfl
    | succ k ih => exact ih
  rw [number, padded, List.foldl_append, hzeros]
  exact Text.foldl_toDigits n

theorem blank_digit {c : Char} (h : c.isDigit = true) : Text.blank c = false := by
  have hrange : 48 ≤ c.toNat ∧ c.toNat ≤ 57 := by
    simpa [Char.isDigit, UInt32.le_iff_toNat_le] using h
  simp only [Text.blank, Bool.or_eq_false_iff, Bool.and_eq_false_iff, decide_eq_false_iff_not,
    beq_eq_false_iff_ne]
  omega

theorem trimStartChars_cons {c : Char} (h : Text.blank c = false) :
    Text.trimStartChars (c :: rest) = c :: rest := by
  simp [Text.trimStartChars, h]

theorem exists_padded_eq_cons (width n : Nat) :
    ∃ d ds, padded width n = d :: ds ∧ d.isDigit = true := by
  cases h : padded width n with
  | nil => exact absurd (List.append_eq_nil_iff.mp h).2 Nat.toDigits_ne_nil
  | cons d ds => exact ⟨d, ds, rfl, isDigit_of_mem_padded width n d (h ▸ List.mem_cons_self)⟩

theorem trimStartChars_padded (width n : Nat) (rest : List Char) :
    Text.trimStartChars (padded width n ++ rest) = padded width n ++ rest := by
  obtain ⟨d, ds, hds, hd⟩ := exists_padded_eq_cons width n
  rw [hds, List.cons_append, trimStartChars_cons (blank_digit hd)]

/-- A field is read as its number, whatever follows it. -/
theorem field?_padded (hwidth : 0 < width) (h : n < Nat.pow 10 width) (rest : List Char) :
    field? width (padded width n ++ rest) = some (n, rest) := by
  have hlength := length_padded hwidth h
  have hdigits : ((padded width n ++ rest).take width).takeWhile Char.isDigit = padded width n := by
    rw [List.take_append_of_le_length (by omega), List.take_of_length_le (by omega)]
    simpa using Text.takeWhile_run (isDigit_of_mem_padded width n) Text.halts_nil
  have hne : (padded width n).isEmpty = false := by
    obtain ⟨d, ds, hds, -⟩ := exists_padded_eq_cons width n
    rw [hds]
    rfl
  unfold field?
  simp only [trimStartChars_padded, hdigits, hne, number_padded]
  simp

theorem year?_padded (h : n < 10000) : year? (padded 4 n ++ rest) = some ((n : Int), rest) := by
  obtain ⟨d, ds, hds, hd⟩ := exists_padded_eq_cons 4 n
  have hfield := field?_padded (show 0 < 4 by decide) h rest
  have htrim := trimStartChars_padded 4 n rest
  unfold year?
  rw [htrim]
  rw [hds, List.cons_append] at hfield ⊢
  split
  · rename_i heq
    exact absurd ((List.cons.inj heq).1 ▸ hd) (by decide)
  · rename_i heq
    exact absurd ((List.cons.inj heq).1 ▸ hd) (by decide)
  · rw [hfield]
    rfl

theorem sign?_cons {c : Char} (h : Text.blank c = false) : sign? c (c :: rest) = some rest := by
  unfold sign?
  rw [trimStartChars_cons h]
  simp

/-! ## 3. Moments -/

/-- A day and a time of day, written as the fields of a text in universal time. -/
def fields (date : CivilDate) (hour minute second : Nat) : List Char :=
  padded 4 date.year.toNat ++ '-' :: (padded 2 date.month ++ '-' :: (padded 2 date.day ++ 'T' ::
    (padded 2 hour ++ ':' :: (padded 2 minute ++ ':' :: (padded 2 second ++ ['Z'])))))

/-- Fields within their ranges are read as the moment that they tell. -/
theorem parse?_fields {date : CivilDate} {hour minute second : Nat} {s : String}
    (hs : s.toList = fields date hour minute second)
    (hyear : 0 ≤ date.year ∧ date.year ≤ 9999) (hmonth : date.month < 100) (hday : date.day < 100)
    (hvalid : date.isValid = true) (hhour : hour < 24) (hminute : minute < 60)
    (hsecond : second < 60)
    (hsame : (CivilDate.ofDays
      ((date.toDays * 86400 + (hour * 3600 + minute * 60 + second : Nat)).fdiv 86400)).year =
        date.year) :
    parse? s = some (ofSeconds (date.toDays * 86400 + (hour * 3600 + minute * 60 + second : Nat))) := by
  have hyears : (date.year.toNat : Int) = date.year := Int.toNat_of_nonneg hyear.1
  have hrange : yearInRange date.year = true := by
    simp only [yearInRange, Bool.and_eq_true, decide_eq_true_eq]
    omega
  have htwo : 0 < 2 := by decide
  have hfraction : fraction? ['Z'] = some (0, ['Z']) := rfl
  have hzone : zone? (Text.trimStartChars ['Z']) = some (0, []) := by decide
  have hleap : (second == 60) = false := by simp; omega
  have hclock : ((hour : Int) * 3600 + minute * 60 + second) =
      (hour * 3600 + minute * 60 + second : Nat) := by omega
  have hend : (Text.trimStartChars []).isEmpty = true := rfl
  unfold parse?
  rw [hs, fields]
  -- One step for each reader: the year, the other fields and the signs between them, the zone.
  refine Option.bind_eq_some_iff.mpr ⟨_, year?_padded (by omega), ?_⟩
  refine Option.bind_eq_some_iff.mpr ⟨_, sign?_cons (by decide), ?_⟩
  refine Option.bind_eq_some_iff.mpr ⟨_, field?_padded htwo hmonth _, ?_⟩
  refine Option.bind_eq_some_iff.mpr ⟨_, sign?_cons (by decide), ?_⟩
  refine Option.bind_eq_some_iff.mpr ⟨_, field?_padded htwo hday _, ?_⟩
  refine Option.bind_eq_some_iff.mpr ⟨_, rfl, ?_⟩
  refine Option.bind_eq_some_iff.mpr ⟨_, field?_padded htwo (show hour < 100 by omega) _, ?_⟩
  refine Option.bind_eq_some_iff.mpr ⟨_, sign?_cons (by decide), ?_⟩
  refine Option.bind_eq_some_iff.mpr ⟨_, field?_padded htwo (show minute < 100 by omega) _, ?_⟩
  refine Option.bind_eq_some_iff.mpr ⟨_, sign?_cons (by decide), ?_⟩
  refine Option.bind_eq_some_iff.mpr ⟨_, field?_padded htwo (show second < 100 by omega) _, ?_⟩
  refine Option.bind_eq_some_iff.mpr ⟨_, hfraction, ?_⟩
  refine Option.bind_eq_some_iff.mpr ⟨_, hzone, ?_⟩
  simp only [hyears, hend, hrange, hvalid, hhour, hminute, hleap, decide_true,
    show second ≤ 60 by omega, Bool.and_self, Bool.not_true, Bool.false_eq_true, if_false, hclock,
    Int.sub_zero, hsame]
  rfl

/-- The text of a whole second, its fields apart. -/
theorem toList_text {n : Int} (hlow : 0 ≤ n) (hhigh : n < 253402300800) :
    (ofSeconds n).text.toList = fields (CivilDate.ofDays (n.fdiv 86400))
      ((n.fmod 86400).toNat / 3600) ((n.fmod 86400).toNat / 60 % 60) ((n.fmod 86400).toNat % 60) := by
  have hdiv : n.fdiv 86400 = n / 86400 := Int.fdiv_eq_ediv_of_nonneg _ (by decide)
  have hyear := CivilDate.year_ofDays (show 0 ≤ n.fdiv 86400 by omega) (by omega)
  simp [text, ofSeconds, yearText, hyear, fractionText, fields]

/-- **A whole second of the years 1970 to 9999 comes back from its text.** -/
theorem parse?_text {n : Int} (hlow : 0 ≤ n) (hhigh : n < 253402300800) :
    parse? (ofSeconds n).text = some (ofSeconds n) := by
  have hdiv : n.fdiv 86400 = n / 86400 := Int.fdiv_eq_ediv_of_nonneg _ (by decide)
  have hmod : n.fmod 86400 = n % 86400 := Int.fmod_eq_emod_of_nonneg _ (by decide)
  have hseconds : (CivilDate.ofDays (n.fdiv 86400)).toDays * 86400 +
      ((n.fmod 86400).toNat / 3600 * 3600 + (n.fmod 86400).toNat / 60 % 60 * 60 +
        (n.fmod 86400).toNat % 60 : Nat) = n := by
    rw [CivilDate.toDays_ofDays]
    omega
  have hparse := parse?_fields (toList_text hlow hhigh)
    (CivilDate.year_ofDays (by omega) (by omega)) (CivilDate.month_ofDays _)
    (CivilDate.day_ofDays _) (CivilDate.isValid_ofDays _) (by omega) (by omega) (by omega)
    (by rw [hseconds])
  rwa [hseconds] at hparse

end Timestamp

end Converge
