import Converge.Audit.Record
import Converge.Proofs.Audit.Moments
import Converge.Proofs.Json.Reading

/-!
# Records read back from their line

A record is written as the members that are present and read from them.

* `membersOf_commas`: the members come back in their order;
* `ofMembers?_members`: a record comes back from its members, **but details that are `null` read as
  no details**;
* `parse?_text_eq`: the line of a record is read as far as its members;
* **`comes_back_unless_null`**: what comes back from the line of a record.
-/

namespace Converge.Audit

open Json.Reader

/-! ## 1. Members -/

/-- Values that lie in an object on the first level of a text. -/
def Shallow (j : Json) : Prop := j.nesting < maxDepth - 1

instance (j : Json) : Decidable (Shallow j) := inferInstanceAs (Decidable (_ < _))

namespace Record

theorem length_le_commas : ∀ ms : List (String × Json), ms ≠ [] →
    ms.length ≤ (commas (ms.map memberText)).length
  | [m], _ => by
    rw [List.map_singleton, commas_singleton, toList_memberText]
    simp
  | m :: n :: ms, _ => by
    have ih := length_le_commas (n :: ms) (List.cons_ne_nil _ _)
    rw [List.map_cons, List.map_cons, commas_cons_cons, ← List.map_cons]
    simp only [List.length_cons, List.length_append] at ih ⊢
    omega

/-- A member of a record and what follows it. -/
theorem membersOf_memberText {m : String × Json} (hname : m.1 ∈ memberNames) (hplain : m.2.Plain)
    (fuel : Nat) (done : List (String × Json)) {rest : List Char} (hrest : Bounded rest) :
    membersOf (fuel + 1) done ((memberText m).toList ++ rest) =
      if Shallow m.2 then
        match skipGap rest with
        | ',' :: rest => membersOf fuel (m :: done) rest
        | '\x7d' :: rest => some ((m :: done).reverse, rest)
        | _ => none
      else none := by
  have htext : (memberText m).toList ++ rest =
      '"' :: (m.1.toList.flatMap Json.escapeChar ++
        '"' :: ':' :: (m.2.compact.toList ++ rest)) := by
    simp [toList_memberText]
  have hvalue : value (enough (m.2.compact.toList ++ rest)) (maxDepth - 1)
      (m.2.compact.toList ++ rest) = if Shallow m.2 then some (m.2, rest) else none :=
    value_compact hplain hrest (by decide)
  rw [htext, membersOf, skipGap_cons (by decide)]
  simp only [string?_quoted]
  rw [skipGap_cons (by decide)]
  simp only [List.contains_iff_mem.mpr hname, if_true, hvalue]
  by_cases hshallow : Shallow m.2
  · rw [if_pos hshallow, if_pos hshallow]
    rfl
  · rw [if_neg hshallow, if_neg hshallow]
    rfl

/-- **The members come back in their order, if none of them is too deep.** -/
theorem membersOf_commas : ∀ (ms : List (String × Json)) (fuel : Nat) (done : List (String × Json))
    (rest : List Char), ms ≠ [] → ms.length ≤ fuel → (∀ m ∈ ms, m.1 ∈ memberNames) →
    (∀ m ∈ ms, m.2.Plain) →
    membersOf fuel done (commas (ms.map memberText) ++ '\x7d' :: rest) =
      if ∀ m ∈ ms, Shallow m.2 then some (done.reverse ++ ms, rest) else none
  | [m], fuel + 1, done, rest, _, _, hnames, hplain => by
    rw [List.map_singleton, commas_singleton, membersOf_memberText (hnames m (by simp))
      (hplain m (by simp)) fuel done (bounded_cons (by simp)), skipGap_cons (by decide)]
    simp
  | m :: n :: ms, fuel + 1, done, rest, _, hfuel, hnames, hplain => by
    have ih := membersOf_commas (n :: ms) fuel (m :: done) rest (List.cons_ne_nil _ _)
      (by simpa using hfuel) (fun x hx => hnames x (List.mem_cons_of_mem _ hx))
      (fun x hx => hplain x (List.mem_cons_of_mem _ hx))
    rw [List.map_cons, List.map_cons, commas_cons_cons, ← List.map_cons, List.append_assoc,
      List.cons_append, membersOf_memberText (hnames m (by simp)) (hplain m (by simp)) fuel done
        (bounded_cons (by simp)), skipGap_cons (by decide)]
    have hcons : (∀ x ∈ m :: n :: ms, Shallow x.2) ↔
        Shallow m.2 ∧ ∀ x ∈ n :: ms, Shallow x.2 := List.forall_mem_cons
    simp only [ih]
    by_cases hshallow : Shallow m.2
    · by_cases hall : ∀ x ∈ n :: ms, Shallow x.2
      · rw [if_pos hshallow, if_pos hall, if_pos (hcons.mpr ⟨hshallow, hall⟩)]
        simp
      · rw [if_pos hshallow, if_neg hall, if_neg fun h => hall (hcons.mp h).2]
    · rw [if_neg hshallow, if_neg fun h => hshallow (hcons.mp h).1]

/-! ## 2. Records -/

/-- What comes back of an entry: everything, but `null` as details is no details. -/
def readBack (e : Entry) : Entry := { e with details := e.details.bind optionalValue }

/-- **A record comes back from its members, but not `null` as its details.** -/
theorem ofMembers?_members {n : Int} (hlow : 0 ≤ n) (hhigh : n < 253402300800) (e : Entry) :
    ofMembers? (members ⟨.ofSeconds n, e⟩) = some ⟨.ofSeconds n, readBack e⟩ := by
  obtain ⟨category, source, action, outcome, resource, details, error, correlationId⟩ := e
  have htime := Timestamp.parse?_text hlow hhigh
  cases resource <;> cases details <;> cases error <;> cases correlationId <;>
    simp [ofMembers?, members, Entry.members, memberNames, memberOrNull, Json.str?, tag?, htime,
      Category.ofName?_name, Outcome.ofTag?_tag, optionalText?, readBack, optionalValue]

/-- All members have known names, and all but the details are texts. -/
theorem mem_members {r : Record} {m : String × Json} (h : m ∈ r.members) :
    m.1 ∈ memberNames ∧ ((∃ s, m.2 = .str s) ∨ r.entry.details = some m.2) := by
  simp only [members, Entry.members, List.mem_cons, List.mem_append, List.not_mem_nil, or_false,
    Option.mem_toList, Option.map_eq_some_iff] at h
  rcases h with rfl | (((((rfl | rfl | rfl | rfl) | ⟨s, -, rfl⟩) | ⟨d, hd, rfl⟩) | ⟨s, -, rfl⟩) |
    ⟨s, -, rfl⟩)
  case inr.inl.inl.inr => exact ⟨by simp [memberNames], .inr hd⟩
  all_goals exact ⟨by simp [memberNames], .inl ⟨_, rfl⟩⟩

theorem details_mem_members {r : Record} {d : Json} (h : d ∈ r.entry.details) :
    ("details", d) ∈ r.members := by
  have hd : r.entry.details = some d := h
  simp [members, Entry.members, hd]

/-- The line of a record is read as far as its members. -/
theorem parse?_text_eq (r : Record) (hplain : ∀ d ∈ r.entry.details, d.Plain) :
    parse? r.text =
      if ∀ d ∈ r.entry.details, Shallow d then ofMembers? r.members else none := by
  have htext : r.text.toList = '\x7b' :: (commas (r.members.map memberText) ++ ['\x7d']) := by
    rw [text, String.toList_append, String.toList_append]
    rfl
  have hne : r.members ≠ [] := List.cons_ne_nil _ _
  have hlength := length_le_commas r.members hne
  have hplains : ∀ m ∈ r.members, m.2.Plain := by
    intro m hm
    obtain ⟨-, ⟨s, hs⟩ | hd⟩ := mem_members hm
    · rw [hs]
      trivial
    · exact hplain _ hd
  have hshallow : (∀ m ∈ r.members, Shallow m.2) ↔ ∀ d ∈ r.entry.details, Shallow d := by
    refine ⟨fun h d hd => h _ (details_mem_members hd), fun h m hm => ?_⟩
    obtain ⟨-, ⟨s, hs⟩ | hd⟩ := mem_members hm
    · rw [hs]
      exact show 0 < maxDepth - 1 by decide
    · exact h _ hd
  have hmembers := membersOf_commas r.members
    ((commas (r.members.map memberText) ++ ['\x7d']).length + 1) [] [] hne
    (by rw [List.length_append]; omega) (fun m hm => (mem_members hm).1) hplains
  obtain ⟨cs, hcs⟩ : ∃ cs, commas (r.members.map memberText) = '"' :: cs :=
    ⟨_, (commas_cons_cons _ _ _).trans (by rw [toList_memberText]; rfl)⟩
  unfold parse?
  simp only [htext]
  rw [skipGap_cons (by decide)]
  rw [hcs, List.cons_append] at hmembers ⊢
  simp only
  rw [skipGap_cons (by decide)]
  split
  · rename_i heq
    exact absurd (List.cons.inj heq).1 (by decide)
  · rw [hmembers]
    by_cases hall : ∀ d ∈ r.entry.details, Shallow d
    · rw [if_pos (hshallow.mpr hall), if_pos hall]
      rfl
    · rw [if_neg fun h => hall (hshallow.mp h), if_neg hall]

/-- What comes back from the line of a record that is not too deep. -/
theorem parse?_text {n : Int} (hlow : 0 ≤ n) (hhigh : n < 253402300800) {e : Entry}
    (hplain : ∀ d ∈ e.details, d.Plain) (hshallow : ∀ d ∈ e.details, Shallow d) :
    parse? (text ⟨.ofSeconds n, e⟩) = some ⟨.ofSeconds n, readBack e⟩ := by
  rw [parse?_text_eq _ hplain, if_pos hshallow, ofMembers?_members hlow hhigh]

theorem readBack_of_ne_null {e : Entry} (h : e.details ≠ some .null) : readBack e = e := by
  obtain ⟨category, source, action, outcome, resource, details, error, correlationId⟩ := e
  unfold readBack
  cases details with
  | none => rfl
  | some d =>
    cases d with
    | null => exact absurd rfl h
    | bool | int | float | str | arr | obj => rfl

/-- **A record comes back from its line, equal in every field, unless its details are `null`**: then
    all comes back but the details, as if there had been none. A record with details that are too
    deep for a reader does not come back at all. -/
theorem comes_back_unless_null {n : Int} (hlow : 0 ≤ n) (hhigh : n < 253402300800) (e : Entry)
    (hplain : ∀ d ∈ e.details, d.Plain) :
    ((∀ d ∈ e.details, Shallow d) → e.details ≠ some .null →
      parse? (text ⟨.ofSeconds n, e⟩) = some ⟨.ofSeconds n, e⟩) ∧
    (e.details = some .null →
      parse? (text ⟨.ofSeconds n, e⟩) = some ⟨.ofSeconds n, { e with details := none }⟩) ∧
    ((¬ ∀ d ∈ e.details, Shallow d) → parse? (text ⟨.ofSeconds n, e⟩) = none) := by
  refine ⟨fun hshallow hnull => ?_, fun hnull => ?_, fun hdeep => ?_⟩
  · rw [parse?_text hlow hhigh hplain hshallow, readBack_of_ne_null hnull]
  · have hshallow : ∀ d ∈ e.details, Shallow d := by
      rintro d hd
      rw [hnull] at hd
      cases hd
      exact show 0 < maxDepth - 1 by decide
    rw [parse?_text hlow hhigh hplain hshallow, readBack, hnull]
    rfl
  · rw [parse?_text_eq _ hplain, if_neg hdeep]

/-- An entry with everything that an entry can have. -/
def fullEntry : Entry :=
  ((((Entry.of .fileChange "featured" "write_file").withResource "file:/etc/\"a\"\n").withError
    "").withCorrelationId "FEATURE|ntp").withDetails
      (.obj [("bytes", .int 18446744073709551615), ("lines", .arr [.null, .bool true, .str "\x08"])])

theorem comes_back_fullEntry :
    parse? (text ⟨.ofSeconds 253402300799, fullEntry⟩) =
      some ⟨.ofSeconds 253402300799, fullEntry⟩ := by
  have hplain : ∀ d ∈ fullEntry.details, d.Plain := by
    rintro d ⟨⟩
    exact ⟨by decide, ⟨by decide, by decide⟩, ⟨trivial, trivial, trivial, trivial⟩, trivial⟩
  have hshallow : ∀ d ∈ fullEntry.details, Shallow d := by
    rintro d ⟨⟩
    decide
  have hnull : fullEntry.details ≠ some .null := by
    intro h
    cases h
  exact (comes_back_unless_null (by decide) (by decide) fullEntry hplain).1 hshallow hnull

/-- Details that are `null` are lost. -/
theorem null_details_lost :
    parse? (text ⟨.ofSeconds 1, (Entry.of .fileChange "s" "write_file").withDetails .null⟩) ≠
      some ⟨.ofSeconds 1, (Entry.of .fileChange "s" "write_file").withDetails .null⟩ := by
  have hplain : ∀ d ∈ ((Entry.of .fileChange "s" "write_file").withDetails .null).details,
      d.Plain := by
    rintro d ⟨⟩
    trivial
  have hshallow : ∀ d ∈ ((Entry.of .fileChange "s" "write_file").withDetails .null).details,
      Shallow d := by
    rintro d ⟨⟩
    exact show 0 < maxDepth - 1 by decide
  rw [parse?_text (by decide) (by decide) hplain hshallow]
  intro h
  have hdetails : (none : Option Json) = some .null :=
    congrArg (fun r : Option Record => r.bind (·.entry.details)) h
  cases hdetails

end Record

end Converge.Audit
