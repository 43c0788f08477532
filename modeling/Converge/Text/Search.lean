/-!
# Looking for one text in another

* `occurs p s`: the text `p` stands somewhere in `s`;
* `splitFirst sep s`: the parts of `s` before and after the first `sep`;
* `lines s`: the parts of `s` between line feeds.

**`splitFirst_eq_some_iff`** says what the two parts are: together with the separator they are the
text, and the first part is free of the separator.
-/

namespace Converge.Text

/-! ## 1. Occurrence -/

/-- The characters `p` stand somewhere in the list, one after another. -/
def occursChars (p : List Char) : List Char → Bool
  | [] => p.isEmpty
  | c :: cs => p.isPrefixOf (c :: cs) || occursChars p cs

/-- **To occur is to stand between two other parts.** -/
theorem occursChars_iff (p : List Char) :
    ∀ s : List Char, occursChars p s = true ↔ ∃ a b, s = a ++ p ++ b
  | [] => by
    unfold occursChars
    constructor
    · intro h
      exact ⟨[], [], by simp [List.isEmpty_iff.mp h]⟩
    · rintro ⟨a, b, h⟩
      simp_all
  | c :: cs => by
    unfold occursChars
    rw [Bool.or_eq_true, occursChars_iff p cs]
    constructor
    · rintro (h | ⟨a, b, rfl⟩)
      · obtain ⟨b, hb⟩ := List.isPrefixOf_iff_prefix.mp h
        exact ⟨[], b, by simp [hb]⟩
      · exact ⟨c :: a, b, by simp⟩
    · rintro ⟨a, b, h⟩
      cases a with
      | nil => exact .inl (List.isPrefixOf_iff_prefix.mpr ⟨b, by simpa using h.symm⟩)
      | cons d a =>
        simp only [List.cons_append, List.cons.injEq] at h
        exact .inr ⟨a, b, h.2⟩

/-- The text `p` stands somewhere in `s`. -/
def occurs (p s : String) : Bool := occursChars p.toList s.toList

theorem occurs_iff (p s : String) : occurs p s = true ↔ ∃ a b, s = a ++ p ++ b := by
  unfold occurs
  rw [occursChars_iff]
  constructor
  · rintro ⟨a, b, h⟩
    refine ⟨.ofList a, .ofList b, ?_⟩
    rw [← String.toList_inj]
    simpa using h
  · rintro ⟨a, b, rfl⟩
    exact ⟨a.toList, b.toList, by simp⟩

/-! ## 2. The first separator -/

/-- The parts before and after the first separator; nothing if there is none. -/
def splitFirstChars (sep : Char) : List Char → Option (List Char × List Char)
  | [] => none
  | c :: cs =>
    if c = sep then some ([], cs)
    else (splitFirstChars sep cs).map fun (a, b) => (c :: a, b)

/-- **The first part is the longest one free of the separator, and nothing is lost.** -/
theorem splitFirstChars_eq_some_iff (sep : Char) :
    ∀ {s a b : List Char}, splitFirstChars sep s = some (a, b) ↔ s = a ++ sep :: b ∧ sep ∉ a
  | [], a, b => by simp [splitFirstChars]
  | c :: cs, a, b => by
    unfold splitFirstChars
    split
    · rename_i h
      subst h
      constructor
      · intro e
        simp only [Option.some.injEq, Prod.mk.injEq] at e
        obtain ⟨rfl, rfl⟩ := e
        simp
      · rintro ⟨e, hn⟩
        cases a with
        | nil => simpa using e
        | cons d a => simp_all
    · rename_i h
      constructor
      · intro e
        obtain ⟨⟨a', b'⟩, e', e''⟩ := Option.map_eq_some_iff.mp e
        simp only [Prod.mk.injEq] at e''
        obtain ⟨rfl, rfl⟩ := e''
        obtain ⟨rfl, hn⟩ := (splitFirstChars_eq_some_iff sep).mp e'
        exact ⟨by simp, by simp [hn, Ne.symm h]⟩
      · rintro ⟨e, hn⟩
        cases a with
        | nil => simp_all
        | cons d a =>
          simp only [List.cons_append, List.cons.injEq] at e
          obtain ⟨rfl, rfl⟩ := e
          have hn' : sep ∉ a := fun h' => hn (by simp [h'])
          rw [(splitFirstChars_eq_some_iff sep).mpr ⟨rfl, hn'⟩]
          rfl

/-- The parts before and after the first separator; nothing if there is none. -/
def splitFirst (sep : Char) (s : String) : Option (String × String) :=
  (splitFirstChars sep s.toList).map fun (a, b) => (String.ofList a, String.ofList b)

theorem splitFirst_eq_some_iff (sep : Char) {s a b : String} :
    splitFirst sep s = some (a, b) ↔ s = a ++ String.singleton sep ++ b ∧ sep ∉ a.toList := by
  have htext : s = a ++ String.singleton sep ++ b ↔ s.toList = a.toList ++ sep :: b.toList := by
    rw [← String.toList_inj]
    simp
  rw [htext, ← splitFirstChars_eq_some_iff]
  unfold splitFirst
  rw [Option.map_eq_some_iff]
  constructor
  · rintro ⟨⟨a', b'⟩, hsplit, heq⟩
    obtain ⟨rfl, rfl⟩ := Prod.mk.inj heq
    rw [hsplit, String.toList_ofList, String.toList_ofList]
  · intro hsplit
    refine ⟨_, hsplit, ?_⟩
    dsimp only
    rw [String.ofList_toList, String.ofList_toList]

/-! ## 3. Lines -/

/-- The parts between separators; a text without one is a single part. -/
def splitAllChars (sep : Char) : List Char → List (List Char)
  | [] => [[]]
  | c :: cs =>
    if c = sep then [] :: splitAllChars sep cs
    else
      match splitAllChars sep cs with
      | [] => [[c]]
      | p :: ps => (c :: p) :: ps

/-- The parts between line feeds. -/
def lines (s : String) : List String := (splitAllChars '\n' s.toList).map String.ofList

end Converge.Text
