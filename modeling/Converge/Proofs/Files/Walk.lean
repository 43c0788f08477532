import Mathlib.Data.List.Basic
import Converge.Files.Atomic

/-!
# Where a path leads

The last part of a path decides which name it has in the directory that is walked to, and the parts
before it decide which directory that is.

* `Plain`: a name that a path can end in; `IsFront`: what can stand before it;
* `fileName?_append`: the file name of such a path; **`target?_append`**: the node that it names;
* `Apart`: two paths never name the same node. They are apart if their last names differ
  (`apart_of_name_ne`), or the names of the directories that hold them (`apart_of_dir_ne`).
-/

namespace Converge.Files

/-! ## 1. Parts -/

/-- A name that is one part of a path, and neither of the two names of directories. -/
structure Plain (name : String) : Prop where
  noSlash : '/' ∉ name.toList
  ne_empty : name ≠ ""
  ne_dot : name ≠ "."
  ne_dots : name ≠ ".."

/-- What can stand before the last part of a path: nothing, or something that ends with a separator. -/
def IsFront (front : String) : Prop := front = "" ∨ ∃ above, front = above ++ "/"

theorem exists_splitAllChars (sep : Char) : ∀ chars, ∃ p ps, Text.splitAllChars sep chars = p :: ps
  | [] => ⟨[], [], rfl⟩
  | c :: chars => by
    obtain ⟨p, ps, h⟩ := exists_splitAllChars sep chars
    unfold Text.splitAllChars
    rw [h]
    split
    · exact ⟨[], p :: ps, rfl⟩
    · exact ⟨c :: p, ps, rfl⟩

theorem splitAllChars_cons_self (sep : Char) (chars : List Char) :
    Text.splitAllChars sep (sep :: chars) = [] :: Text.splitAllChars sep chars := if_pos rfl

/-- A character that is no separator belongs to the first part. -/
theorem splitAllChars_cons_of_ne {sep c : Char} (hc : c ≠ sep) {chars p : List Char}
    {ps : List (List Char)} (h : Text.splitAllChars sep chars = p :: ps) :
    Text.splitAllChars sep (c :: chars) = (c :: p) :: ps := by
  unfold Text.splitAllChars
  rw [if_neg hc, h]

theorem splitAllChars_append (sep : Char) (later : List Char) : ∀ first,
    Text.splitAllChars sep (first ++ sep :: later) =
      Text.splitAllChars sep first ++ Text.splitAllChars sep later
  | [] => splitAllChars_cons_self sep later
  | c :: first => by
    have ih := splitAllChars_append sep later first
    by_cases hc : c = sep
    · rw [hc, List.cons_append, splitAllChars_cons_self, splitAllChars_cons_self, ih]
      rfl
    · obtain ⟨p, ps, h⟩ := exists_splitAllChars sep first
      rw [h] at ih
      rw [List.cons_append, splitAllChars_cons_of_ne hc ih, splitAllChars_cons_of_ne hc h]
      rfl

theorem splitAllChars_of_not_mem {sep : Char} : ∀ {chars : List Char}, sep ∉ chars →
    Text.splitAllChars sep chars = [chars]
  | [], _ => rfl
  | c :: chars, h => by
    rw [List.mem_cons, not_or] at h
    exact splitAllChars_cons_of_ne (Ne.symm h.1) (splitAllChars_of_not_mem h.2)

/-- The parts of a path that are walked. -/
def parts (path : String) : List String := (Path.segments path).filter fun s => !s.isEmpty

theorem segments_append (above below : String) :
    Path.segments (above ++ "/" ++ below) = Path.segments above ++ Path.segments below := by
  unfold Path.segments
  rw [← List.map_append, ← splitAllChars_append]
  simp [String.toList_append]

theorem segments_of_plain {name : String} (h : Plain name) : Path.segments name = [name] := by
  unfold Path.segments
  rw [splitAllChars_of_not_mem h.noSlash]
  simp

theorem parts_of_plain {name : String} (h : Plain name) : parts name = [name] := by
  unfold parts
  rw [segments_of_plain h]
  simpa using h.ne_empty

/-- A separator at the end is no part. -/
theorem parts_append_slash (path : String) : parts (path ++ "/") = parts path := by
  have hends : path ++ "/" = path ++ "/" ++ "" := by simp
  have hnil : parts "" = [] := by decide
  unfold parts at hnil ⊢
  rw [hends, segments_append, List.filter_append, hnil, List.append_nil]

/-- **The parts of a path are those of what stands in front and those of the rest.** -/
theorem parts_append {front : String} (h : IsFront front) (rest : String) :
    parts (front ++ rest) = parts front ++ parts rest := by
  rcases h with rfl | ⟨above, rfl⟩
  · simp [parts, Path.segments, Text.splitAllChars]
  · rw [parts_append_slash]
    unfold parts
    rw [segments_append, List.filter_append]

theorem isFront_of_ends {base : String}
    (h : (base.isEmpty || base.toList.getLast? == some '/') = true) : IsFront base := by
  rcases Bool.or_eq_true_iff.mp h with hempty | hslash
  · exact .inl (String.isEmpty_iff.mp hempty)
  · obtain ⟨above, habove⟩ := List.getLast?_eq_some_iff.mp (beq_iff_eq.mp hslash)
    refine .inr ⟨String.ofList above, String.toList_inj.mp ?_⟩
    simp [habove, String.toList_append]

/-- What is not absolute is joined behind a front. -/
theorem exists_join_eq (base : String) {p : String} (hp : Path.isAbsolute p = false) :
    ∃ front, IsFront front ∧ Path.join base p = front ++ p := by
  unfold Path.join
  rw [hp, if_neg Bool.false_ne_true]
  by_cases h : (base.isEmpty || base.toList.getLast? == some '/') = true
  · exact ⟨base, isFront_of_ends h, if_pos h⟩
  · exact ⟨base ++ "/", .inr ⟨base, rfl⟩, if_neg h⟩

/-- **The file name of a path that ends in a plain name.** -/
theorem fileName?_append {front name : String} (hf : IsFront front) (hn : Plain name) :
    Path.fileName? (front ++ name) = some name := by
  obtain ⟨before, hsegments⟩ : ∃ before, Path.segments (front ++ name) = before ++ [name] := by
    rcases hf with rfl | ⟨above, rfl⟩
    · exact ⟨[], by rw [String.empty_append, segments_of_plain hn, List.nil_append]⟩
    · exact ⟨Path.segments above, by rw [segments_append, segments_of_plain hn]⟩
  have hcounts : Path.counts before.length name = true := by
    simp [Path.counts, hn.ne_empty, hn.ne_dot]
  have hlast : (Path.components (front ++ name)).getLast? = some name := by
    unfold Path.components Path.placed
    rw [hsegments, List.zipIdx_append, List.filterMap_append, List.map_append]
    simp [hcounts]
  unfold Path.fileName?
  rw [hlast]
  simp [hn.ne_dot, hn.ne_dots]

/-! ## 2. Walking -/

namespace Tree

/-- Steps into all parts. -/
def enterAll (t : Tree) (dir : String) : List String → Except IoFault String
  | [] => .ok dir
  | part :: rest =>
    match t.enter dir part with
    | .error e => .error e
    | .ok dir => t.enterAll dir rest

/-- The key that a path names, whether a node is there or not. -/
def target? (t : Tree) (path : String) : Option String :=
  match t.walk path with
  | .ok ⟨dir, .name n, _⟩ => some (keyIn dir n)
  | _ => none

variable {t : Tree}

theorem walkParts_cons (dir part : String) {rest : List String} (h : rest ≠ []) :
    t.walkParts dir (part :: rest) =
      match t.enter dir part with
      | .error e => .error e
      | .ok dir => t.walkParts dir rest := by
  cases rest with
  | nil => exact absurd rfl h
  | cons next rest => rfl

theorem walkParts_concat (last : String) : ∀ (front : List String) (dir : String),
    t.walkParts dir (front ++ [last]) =
      match t.enterAll dir front with
      | .error e => .error e
      | .ok dir => .ok (dir, some last)
  | [], _ => rfl
  | part :: front, dir => by
    rw [List.cons_append, walkParts_cons dir part (by simp), enterAll]
    cases t.enter dir part with
    | error e => rfl
    | ok dir => exact walkParts_concat last front dir

theorem enterAll_append (first later : List String) : ∀ {dir below : String},
    t.enterAll dir (first ++ later) = .ok below →
      ∃ mid, t.enterAll dir first = .ok mid ∧ t.enterAll mid later = .ok below := by
  induction first with
  | nil => exact fun h => ⟨_, rfl, h⟩
  | cons part first ih =>
    intro dir below h
    rw [List.cons_append, enterAll] at h
    rw [enterAll]
    cases henter : t.enter dir part with
    | error e =>
      rw [henter] at h
      cases h
    | ok next =>
      rw [henter] at h
      exact ih h

/-- A plain name is entered under its key. -/
theorem enter_of_plain {dir name key : String} (hn : Plain name) (h : t.enter dir name = .ok key) :
    key = keyIn dir name := by
  unfold enter at h
  rw [if_neg (by simpa using hn.ne_dot), if_neg (by simpa using hn.ne_dots)] at h
  split at h
  · cases h
  · split at h
    · cases h
    · exact (Except.ok.inj h).symm
    · cases h

/-- **A path that ends in a plain name names it in the directory that its front leads to.** -/
theorem walk_append {front name : String} (hf : IsFront front) (hn : Plain name) {place : Place}
    (h : t.walk (front ++ name) = .ok place) :
    ∃ dir, t.enterAll "" (parts front) = .ok dir ∧ place = ⟨dir, .name name, false⟩ := by
  have hlast : ((front ++ name).toList.getLast? == some '/') = false := by
    obtain ⟨c, hc⟩ : ∃ c, name.toList.getLast? = some c :=
      Option.isSome_iff_exists.mp (by simpa [List.getLast?_isSome] using hn.ne_empty)
    have hne : c ≠ '/' := fun he => hn.noSlash (he ▸ List.mem_of_getLast? hc)
    rw [String.toList_append, List.getLast?_append, hc]
    simpa using hne
  unfold walk at h
  rw [hlast] at h
  split at h
  · cases h
  split at h
  · cases h
  split at h
  · cases h
  have hparts : ((Path.segments (front ++ name)).filter fun s => !s.isEmpty) = parts front ++ [name] := by
    rw [← parts_of_plain hn, ← parts_append hf]
    rfl
  simp only [hparts, walkParts_concat] at h
  cases henter : t.enterAll "" (parts front) with
  | error e =>
    rw [henter] at h
    cases h
  | ok dir =>
    rw [henter] at h
    simp only [beq_iff_eq, hn.ne_dot, hn.ne_dots, if_false] at h
    split at h
    · cases h
    · exact ⟨dir, rfl, (Except.ok.inj h).symm⟩

theorem target?_append {front name key : String} (hf : IsFront front) (hn : Plain name)
    (h : t.target? (front ++ name) = some key) :
    ∃ dir, t.enterAll "" (parts front) = .ok dir ∧ key = keyIn dir name := by
  unfold target? at h
  cases hwalk : t.walk (front ++ name) with
  | error e =>
    rw [hwalk] at h
    cases h
  | ok place =>
    obtain ⟨dir, hdir, rfl⟩ := walk_append hf hn hwalk
    rw [hwalk] at h
    exact ⟨dir, hdir, (Option.some.inj h).symm⟩

end Tree

/-! ## 3. Paths that are apart -/

/-- The two paths never name the same node. -/
def Apart (p q : String) : Prop :=
  ∀ (t : Tree) (key : String), t.target? p = some key → t.target? q ≠ some key

/-- A key tells the directory and the name. -/
theorem keyIn_inj {dir dir' name name' : String} (hn : '/' ∉ name.toList) (hn' : '/' ∉ name'.toList)
    (h : Tree.keyIn dir name = Tree.keyIn dir' name') : dir = dir' ∧ name = name' := by
  have hlists : dir.toList ++ '/' :: name.toList = dir'.toList ++ '/' :: name'.toList := by
    simpa [Tree.keyIn, String.toList_append] using congrArg String.toList h
  have hparts := congrArg (Text.splitAllChars '/') hlists
  rw [splitAllChars_append, splitAllChars_append, splitAllChars_of_not_mem hn,
    splitAllChars_of_not_mem hn'] at hparts
  have hname : name.toList = name'.toList := by
    simpa using (List.append_inj' hparts rfl).2
  rw [hname] at hlists
  exact ⟨String.toList_inj.mp (List.append_cancel_right hlists), String.toList_inj.mp hname⟩

/-- Paths that end in different names are apart. -/
theorem apart_of_name_ne {front front' name name' : String} (hf : IsFront front)
    (hf' : IsFront front') (hn : Plain name) (hn' : Plain name') (hne : name ≠ name') :
    Apart (front ++ name) (front' ++ name') := by
  intro t key hkey hkey'
  obtain ⟨dir, -, rfl⟩ := Tree.target?_append hf hn hkey
  obtain ⟨dir', -, he⟩ := Tree.target?_append hf' hn' hkey'
  exact hne (keyIn_inj hn.noSlash hn'.noSlash he).2

/-- Paths with one name in different directories of one directory are apart. -/
theorem apart_of_dir_ne {front dir dir' name : String} (hf : IsFront front) (hd : Plain dir)
    (hd' : Plain dir') (hn : Plain name) (hne : dir ≠ dir') :
    Apart (front ++ dir ++ "/" ++ name) (front ++ dir' ++ "/" ++ name) := by
  have hkeys : ∀ {t : Tree} {d key : String}, Plain d →
      t.target? (front ++ d ++ "/" ++ name) = some key →
        ∃ above, t.enterAll "" (parts front) = .ok above ∧
          key = Tree.keyIn (Tree.keyIn above d) name := fun {t d key} hd h => by
    obtain ⟨holder, hholder, rfl⟩ := Tree.target?_append (.inr ⟨front ++ d, rfl⟩) hn h
    rw [parts_append_slash, parts_append hf, parts_of_plain hd] at hholder
    obtain ⟨above, habove, hlast⟩ := Tree.enterAll_append _ _ hholder
    unfold Tree.enterAll at hlast
    split at hlast
    · cases hlast
    · rename_i next hnext
      obtain rfl : next = holder := Except.ok.inj hlast
      exact ⟨above, habove, by rw [Tree.enter_of_plain hd hnext]⟩
  intro t key hkey hkey'
  obtain ⟨above, habove, rfl⟩ := hkeys hd hkey
  obtain ⟨above', habove', he⟩ := hkeys hd' hkey'
  rw [habove] at habove'
  cases habove'
  have hdirs := (keyIn_inj hn.noSlash hn.noSlash he).1
  exact hne (keyIn_inj hd.noSlash hd'.noSlash hdirs).2

end Converge.Files
