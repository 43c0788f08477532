import Mathlib.Data.List.Induction
import Converge.Executor.Chain
import Converge.Programs.Machine
import Converge.Proofs.Files.Atomic

/-!
# A file action on a whole tree

What a file action does to every node of a tree, not only to the files that somebody reads later.

* `placedFrom_cases`, **`walk_name`**: a path that leads to a name has this file name, and the
  directory is the one that its directory part leads to; so the scratch file stands beside the file
  (`Tree.scratch?_of_walk`);
* `Tree.Widens`: directories were added, and all else is as it was, apart from some keys;
* `Tree.Opens`: the scratch file may be opened; `Ending`: the ways in which a replacement on a medium
  ends, with the tree that each leaves; there is no other (`ending_writeAtomic`);
* `Medium.Leaves`: the two accidents behind which a scratch file is left, which take a medium with
  faults of its own (`not_leaves_sound`, `Undone.no_new_file_of_sound`);
* `Done`, `Undone`: what a tree is like behind a replacement that succeeded, and behind one that
  failed; **`write_action_atomic`**: a file action ends in one of the two, on every medium.
-/

namespace Converge.Files

/-! ## 1. The directory part of a path -/

theorem not_mem_of_mem_splitAllChars {sep : Char} : ∀ {chars part : List Char},
    part ∈ Text.splitAllChars sep chars → sep ∉ part
  | [], part, h => by
    rw [List.mem_singleton.mp h]
    exact List.not_mem_nil
  | c :: chars, part, h => by
    obtain ⟨p, ps, hsplit⟩ := exists_splitAllChars sep chars
    by_cases hc : c = sep
    · rw [hc, splitAllChars_cons_self] at h
      rcases List.mem_cons.mp h with rfl | h
      · exact List.not_mem_nil
      · exact not_mem_of_mem_splitAllChars h
    · rw [splitAllChars_cons_of_ne hc hsplit] at h
      have hps : ∀ q ∈ p :: ps, sep ∉ q := fun q hq =>
        not_mem_of_mem_splitAllChars (hsplit ▸ hq)
      rcases List.mem_cons.mp h with rfl | h
      · exact List.not_mem_cons_of_ne_of_not_mem (Ne.symm hc) (hps p List.mem_cons_self)
      · exact hps part (List.mem_cons_of_mem _ h)

/-- Parts without separators, joined by separators, are split into the same parts. -/
theorem splitAllChars_intercalate {sep : Char} : ∀ {l : List (List Char)}, l ≠ [] →
    (∀ part ∈ l, sep ∉ part) → Text.splitAllChars sep ([sep].intercalate l) = l
  | [], h, _ => absurd rfl h
  | [part], _, h => by
    rw [List.intercalate_singleton]
    exact splitAllChars_of_not_mem (h part List.mem_cons_self)
  | part :: next :: rest, _, h => by
    have ih := splitAllChars_intercalate (l := next :: rest) (by simp)
      fun p hp => h p (List.mem_cons_of_mem _ hp)
    rw [List.intercalate_cons_cons, List.append_assoc, List.singleton_append, splitAllChars_append,
      splitAllChars_of_not_mem (h part List.mem_cons_self), ih]
    rfl

/-- Some leading segments of a path, joined again, have these segments. -/
theorem segments_take {path : String} {n : Nat} (hn : n ≠ 0) :
    Path.segments ("/".intercalate ((Path.segments path).take n)) = (Path.segments path).take n := by
  have hne : (Text.splitAllChars '/' path.toList).take n ≠ [] := by
    obtain ⟨p, ps, h⟩ := exists_splitAllChars '/' path.toList
    simp [h, hn]
  have hfree : ∀ part ∈ (Text.splitAllChars '/' path.toList).take n, '/' ∉ part :=
    fun part hpart => not_mem_of_mem_splitAllChars (List.mem_of_mem_take hpart)
  have hback : ("/".intercalate ((Path.segments path).take n)).toList =
      ['/'].intercalate ((Text.splitAllChars '/' path.toList).take n) := by
    rw [String.toList_intercalate, Path.segments, ← List.map_take, List.map_map]
    simp
  conv_lhs => rw [Path.segments, hback, splitAllChars_intercalate hne hfree, List.map_take]
  rfl

/-- The segment names no directory: it is empty or a point. -/
def Silent (segment : String) : Prop := segment = "" ∨ segment = "."

theorem silent_of_not_counts {place : Nat} {segment : String}
    (h : ¬ Path.counts place segment = true) : Silent segment := by
  simp only [Path.counts, Bool.and_eq_true, Bool.or_eq_true, not_and_or, not_or] at h
  rcases h with h | ⟨h, -⟩
  · exact .inl (by simpa using h)
  · exact .inr (by simpa using h)

/-- The components among segments with their places, the first segment at `start`. -/
def placedFrom (start : Nat) (segments : List String) : List (Nat × String) :=
  (segments.zipIdx start).filterMap fun (s, i) => if Path.counts i s then some (i, s) else none

theorem placedFrom_nil (start : Nat) : placedFrom start [] = [] := rfl

theorem placedFrom_cons (start : Nat) (s : String) (segments : List String) :
    placedFrom start (s :: segments) =
      (if Path.counts start s then [(start, s)] else []) ++ placedFrom (start + 1) segments := by
  unfold placedFrom
  rw [List.zipIdx_cons, List.filterMap_cons]
  split <;> simp_all

theorem placedFrom_append (start : Nat) (front back : List String) :
    placedFrom start (front ++ back) =
      placedFrom start front ++ placedFrom (start + front.length) back := by
  unfold placedFrom
  rw [List.zipIdx_append, List.filterMap_append]

theorem placedFrom_of_empty : ∀ {segments : List String}, (∀ s ∈ segments, s = "") →
    ∀ start, placedFrom start segments = []
  | [], _, _ => rfl
  | s :: segments, h, start => by
    obtain rfl := h s List.mem_cons_self
    rw [placedFrom_cons, placedFrom_of_empty fun s hs => h s (List.mem_cons_of_mem _ hs)]
    simp [Path.counts]

/-- Behind the last component all segments are silent. -/
theorem placedFrom_cases (segments : List String) :
    (placedFrom 0 segments = [] ∧ ∀ s ∈ segments, Silent s) ∨
      ∃ i s rest, (placedFrom 0 segments).reverse = (i, s) :: rest ∧ i < segments.length ∧
        ∀ s ∈ segments.drop (i + 1), Silent s := by
  induction segments using List.reverseRecOn with
  | nil => exact .inl ⟨rfl, by simp⟩
  | append_singleton front last ih =>
    rw [placedFrom_append, placedFrom_cons, placedFrom_nil, List.append_nil, Nat.zero_add]
    by_cases hcounts : Path.counts front.length last = true
    · refine .inr ⟨front.length, last, (placedFrom 0 front).reverse, ?_, by simp, ?_⟩
      · simp [hcounts]
      · intro s hs
        simp at hs
    · have hlast := silent_of_not_counts hcounts
      rw [if_neg hcounts, List.append_nil]
      rcases ih with ⟨hnil, hall⟩ | ⟨i, s, rest, hrev, hi, hall⟩
      · refine .inl ⟨hnil, fun s hs => ?_⟩
        rcases List.mem_append.mp hs with hs | hs
        · exact hall s hs
        · exact List.mem_singleton.mp hs ▸ hlast
      · refine .inr ⟨i, s, rest, hrev, by simp; omega, fun s' hs => ?_⟩
        rw [List.drop_append_of_le_length (by omega)] at hs
        rcases List.mem_append.mp hs with hs | hs
        · exact hall s' hs
        · exact List.mem_singleton.mp hs ▸ hlast

namespace Tree

variable {t : Tree}

/-- Silent segments lead nowhere. -/
theorem enterAll_of_silent {dir below : String} : ∀ {segments : List String},
    (∀ s ∈ segments, Silent s) → t.enterAll dir (segments.filter fun s => !s.isEmpty) = .ok below →
      below = dir
  | [], _, h => (Except.ok.inj h).symm
  | segment :: rest, hall, h => by
    have hrest : ∀ s ∈ rest, Silent s := fun s hs => hall s (List.mem_cons_of_mem _ hs)
    rcases hall segment List.mem_cons_self with rfl | rfl
    · exact enterAll_of_silent hrest h
    · exact enterAll_of_silent hrest h

/-- What a path that leads to a name is made of: the walked parts, the name, and empty segments. -/
theorem segments_of_walk {path dir name : String} {trailing : Bool}
    (h : t.walk path = .ok ⟨dir, .name name, trailing⟩) :
    ∃ front back, Path.segments path = front ++ name :: back ∧ (∀ s ∈ back, s = "") ∧
      t.enterAll "" (front.filter fun s => !s.isEmpty) = .ok dir ∧
      name ≠ "" ∧ name ≠ "." ∧ name ≠ ".." := by
  unfold walk at h
  split at h
  · cases h
  split at h
  · cases h
  split at h
  · cases h
  simp only at h
  rcases List.eq_nil_or_concat ((Path.segments path).filter fun s => !s.isEmpty)
    with hnil | ⟨walked, last, hparts⟩
  · rw [hnil, walkParts] at h
    cases h
  rw [List.concat_eq_append] at hparts
  rw [hparts, walkParts_concat] at h
  cases henter : t.enterAll "" walked with
  | error e =>
    rw [henter] at h
    cases h
  | ok holder =>
    rw [henter] at h
    simp only at h
    split at h
    · cases h
    rename_i hdot
    split at h
    · cases h
    rename_i hdots
    split at h
    · cases h
    cases h
    obtain ⟨front, rest, hsegments, hwalked, hrest⟩ := List.filter_eq_append_iff.mp hparts
    obtain ⟨gap, back, rfl, hgap, hname, hback⟩ := List.filter_eq_cons_iff.mp hrest
    refine ⟨front ++ gap, back, by simp [hsegments], fun s hs => ?_, ?_, by simpa using hname,
      by simpa using hdot, by simpa using hdots⟩
    · simpa using List.filter_eq_nil_iff.mp hback s hs
    · have hnone : gap.filter (fun s => !s.isEmpty) = [] := List.filter_eq_nil_iff.mpr hgap
      rw [List.filter_append, hnone, List.append_nil, hwalked, henter]

/-- **A path that leads to a name has this file name, and its directory part leads to the
    directory.** -/
theorem walk_name {path dir name : String} {trailing : Bool}
    (h : t.walk path = .ok ⟨dir, .name name, trailing⟩) :
    Path.fileName? path = some name ∧ t.enterAll "" (parts (directoryOf path)) = .ok dir := by
  obtain ⟨front, back, hsegments, hback, hdir, hne, hdot, hdots⟩ := segments_of_walk h
  have hplaced : Path.placed path = placedFrom 0 front ++ [(front.length, name)] := by
    have hcounts : Path.counts front.length name = true := by simp [Path.counts, hne, hdot]
    change placedFrom 0 (Path.segments path) = _
    rw [hsegments, placedFrom_append, placedFrom_cons, placedFrom_of_empty hback, Nat.zero_add,
      if_pos hcounts, List.append_nil]
  refine ⟨?_, ?_⟩
  · unfold Path.fileName? Path.components
    rw [hplaced]
    simp [hdot, hdots]
  · unfold directoryOf Path.parent?
    rw [hplaced, List.reverse_append]
    rcases placedFrom_cases front with ⟨hnil, hall⟩ | ⟨i, s, rest, hrev, hi, hall⟩
    · -- no component before the name: the directory part is the root, or nothing
      rw [hnil]
      have hroot : dir = "" := enterAll_of_silent hall hdir
      rw [hroot]
      by_cases habsolute : Path.isAbsolute path = true
      · simp [habsolute, parts, Path.segments, Text.splitAllChars, enterAll]
      · simp [habsolute, parts, Path.segments, Text.splitAllChars, enterAll]
    · rw [hrev]
      have htake : (Path.segments path).take (i + 1) = front.take (i + 1) := by
        rw [hsegments, List.take_append_of_le_length (by omega)]
      have hparts : parts ("/".intercalate ((Path.segments path).take (i + 1))) =
          (front.take (i + 1)).filter fun s => !s.isEmpty := by
        unfold parts
        rw [segments_take (Nat.succ_ne_zero i), htake]
      rw [← List.take_append_drop (i + 1) front, List.filter_append] at hdir
      obtain ⟨mid, hmid, hlast⟩ := enterAll_append _ _ hdir
      rw [enterAll_of_silent hall hlast]
      simpa [hparts] using hmid

end Tree

/-! ## 2. The scratch file -/

/-- The name of the scratch file beside a file. -/
def scratchName (name : String) : String := "." ++ name ++ ".tmp"

theorem ne_scratchName (name : String) : name ≠ scratchName name := fun h => by
  have hlength := congrArg String.length h
  have hends : ("." : String).length = 1 ∧ (".tmp" : String).length = 4 := ⟨rfl, rfl⟩
  rw [scratchName, String.length_append, String.length_append, hends.1, hends.2] at hlength
  omega

theorem plain_scratchName {name : String} (h : '/' ∉ name.toList) : Plain (scratchName name) := by
  have hlong : ∀ short : String, short.length < 5 → scratchName name ≠ short := fun short hs he => by
    have hlength := congrArg String.length he
    have hends : ("." : String).length = 1 ∧ (".tmp" : String).length = 4 := ⟨rfl, rfl⟩
    rw [scratchName, String.length_append, String.length_append, hends.1, hends.2] at hlength
    omega
  exact ⟨by simpa [scratchName, String.toList_append] using h, hlong _ (by decide), hlong _ (by decide),
    hlong _ (by decide)⟩

theorem not_mem_fileName {path name : String} (h : Path.fileName? path = some name) :
    '/' ∉ name.toList := by
  unfold Path.fileName? at h
  split at h
  · rename_i last hlast
    split at h
    · cases h
    · cases h
      obtain ⟨⟨i, s⟩, hs, rfl⟩ := List.mem_map.mp (List.mem_of_getLast? hlast)
      obtain ⟨⟨s', i'⟩, hzip, he⟩ := List.mem_filterMap.mp hs
      have hs' : s' = s := by
        simp only at he
        split at he <;> cases he
        rfl
      obtain ⟨part, hpart, hseg⟩ := List.mem_map.mp (List.fst_mem_of_mem_zipIdx hzip)
      have hfree := not_mem_of_mem_splitAllChars hpart
      simp only at hseg
      rw [← hs', ← hseg]
      simpa using hfree
  · cases h

/-- The path of the scratch file ends in its name, behind what leads to the directory. -/
theorem exists_scratchPath_eq (path name : String) :
    ∃ front, IsFront front ∧ scratchPath path name = front ++ scratchName name ∧
      parts front = parts (directoryOf path) := by
  have hrelative : Path.isAbsolute (scratchName name) = false := by
    simp [Path.isAbsolute, scratchName, String.toList_append]
  have hjoin : scratchPath path name = Path.join (directoryOf path) (scratchName name) := rfl
  rw [hjoin, Path.join, hrelative, if_neg Bool.false_ne_true]
  by_cases hends : ((directoryOf path).isEmpty || (directoryOf path).toList.getLast? == some '/') = true
  · exact ⟨directoryOf path, isFront_of_ends hends, if_pos hends, rfl⟩
  · exact ⟨directoryOf path ++ "/", .inr ⟨_, rfl⟩, if_neg hends, parts_append_slash _⟩

namespace Tree

variable {t t' : Tree}

/-- The key of the scratch file beside a path, whether a file is there or not. -/
def scratch? (t : Tree) (path : String) : Option String :=
  (Path.fileName? path).bind fun name => t.target? (scratchPath path name)

theorem walk_scratchPath {path name : String} {place : Place} (hname : '/' ∉ name.toList)
    (h : t.walk (scratchPath path name) = .ok place) :
    ∃ dir, t.enterAll "" (parts (directoryOf path)) = .ok dir ∧
      place = ⟨dir, .name (scratchName name), false⟩ := by
  obtain ⟨front, hfront, hpath, hparts⟩ := exists_scratchPath_eq path name
  rw [hpath] at h
  obtain ⟨dir, hdir, hplace⟩ := walk_append hfront (plain_scratchName hname) h
  exact ⟨dir, hparts ▸ hdir, hplace⟩

/-- **The scratch file stands in the directory of the file.** -/
theorem scratch?_of_walk {path dir name key : String} {trailing : Bool}
    (h : t.walk path = .ok ⟨dir, .name name, trailing⟩) (hkey : t.scratch? path = some key) :
    key = keyIn dir (scratchName name) := by
  obtain ⟨hname, hdir⟩ := walk_name h
  rw [scratch?, hname, Option.bind_some] at hkey
  obtain ⟨dir', name', trailing', hwalk, rfl⟩ := target?_eq_some_iff.mp hkey
  obtain ⟨dir'', hdir', hplace⟩ := walk_scratchPath (not_mem_fileName hname) hwalk
  rw [hdir] at hdir'
  cases hplace
  cases hdir'
  rfl

/-- A file is never its own scratch file. -/
theorem scratch?_ne_target {path key : String} (h : t.target? path = some key) :
    t.scratch? path ≠ some key := by
  intro hscratch
  obtain ⟨dir, name, trailing, hwalk, rfl⟩ := target?_eq_some_iff.mp h
  have hname := not_mem_fileName (walk_name hwalk).1
  have he := scratch?_of_walk hwalk hscratch
  exact ne_scratchName name (keyIn_inj hname (plain_scratchName hname).noSlash he).2

/-! ## 3. Trees that widen -/

/-- Directories were added; all else is as it was, apart from what is at the given keys. -/
def Widens (t t' : Tree) (keys : List String) : Prop :=
  ∀ key, key ∉ keys → t'.node? key = t.node? key ∨ t.node? key = none ∧ t'.node? key = some .dir

theorem Widens.refl (t : Tree) (keys : List String) : Widens t t keys := fun _ _ => .inl rfl

theorem Widens.trans {t'' : Tree} (h : Widens t t' []) (h' : Widens t' t'' []) : Widens t t'' [] := by
  intro key hkey
  rcases h key hkey with h | ⟨hnone, hdir⟩
  · rw [← h]
    exact h' key hkey
  · rcases h' key hkey with h' | ⟨hnone', -⟩
    · exact .inr ⟨hnone, h'.trans hdir⟩
    · rw [hdir] at hnone'
      cases hnone'

theorem Widens.mono {keys keys' : List String} (h : Widens t t' keys) (hsub : keys ⊆ keys') :
    Widens t t' keys' := fun key hkey => h key fun hmem => hkey (hsub hmem)

theorem Widens.put {keys : List String} {dir name : String} (h : Widens t t' keys) (n : Node)
    (hmem : keyIn dir name ∈ keys) : Widens t (t'.put (keyIn dir name) n) keys := by
  intro key hkey
  have hne : key ≠ keyIn dir name := fun he => hkey (he ▸ hmem)
  rw [node?_put, if_neg hne]
  exact h key hkey

theorem Widens.drop {keys : List String} {dir name : String} (h : Widens t t' keys)
    (hmem : keyIn dir name ∈ keys) : Widens t (t'.drop (keyIn dir name)) keys := by
  intro key hkey
  have hne : key ≠ keyIn dir name := fun he => hkey (he ▸ hmem)
  rw [node?_drop, if_neg hne]
  exact h key hkey

theorem Widens.spares (h : Widens t t' []) : Spares t t' [] := by
  intro key n hn _
  rcases h key List.not_mem_nil with he | ⟨hnone, -⟩
  · exact he.trans hn
  · rw [hn] at hnone
    cases hnone

theorem Spares.keeps_dir {keys : List String} (h : Spares t t' keys) {key : String}
    (hdir : t.node? key = some .dir) : t'.node? key = some .dir := h key .dir hdir (.inl rfl)

theorem widens_makeDir {path : String} (h : t.makeDir path = .ok t') : Widens t t' [] := by
  unfold makeDir at h
  split at h
  · cases h
  · cases h
  · rename_i dir name trailing hwalk
    split at h
    · cases h
    · rename_i hfree
      cases h
      intro key _
      rw [node?_put]
      split
      · rename_i he
        exact .inr ⟨he ▸ hfree, rfl⟩
      · exact .inl rfl

end Tree

open Files.Tree

theorem widens_makeDirs (m : Medium) : ∀ (fuel : Nat) (t : Tree) (path : String),
    Widens t (makeDirs m fuel t path).1 []
  | fuel, t, path => by
    unfold makeDirs
    split
    · exact .refl _ _
    split
    · exact widens_makeDir (m.makeDir_eq_ok ‹_›)
    split
    · -- the directory above is missing
      split
      · rename_i fuel above _
        have habove := widens_makeDirs m fuel t above
        split
        · rename_i hmade
          rwa [hmade] at habove
        · rename_i hmade
          rw [hmade] at habove
          split
          · exact habove.trans (widens_makeDir (m.makeDir_eq_ok ‹_›))
          · split <;> exact habove
      · exact .refl _ _
    · split <;> exact .refl _ _

/-- The tree with the directories above a path. -/
def readied (m : Medium) (t : Tree) (path : String) : Tree :=
  (makeDirs m (directoryOf path).length t (directoryOf path)).1

theorem widens_readied (m : Medium) (t : Tree) (path : String) : Widens t (readied m t path) [] :=
  widens_makeDirs m _ t _

/-! ## 4. How a replacement ends -/

/-- The tree with the scratch file of a name. -/
def Tree.scratched (t : Tree) (dir name : String) (bytes : List UInt8) : Tree :=
  t.put (keyIn dir (scratchName name)) (.file bytes)

/-- The tree without it. -/
def Tree.unscratched (t : Tree) (dir name : String) : Tree := t.drop (keyIn dir (scratchName name))

/-- The scratch file of a path may be opened: the way to it ends in a directory, where its name does
    not belong to another directory. -/
structure Tree.Opens (t : Tree) (path dir name : String) : Prop where
  fileName : Path.fileName? path = some name
  leads : t.walk (scratchPath path name) = .ok ⟨dir, .name (scratchName name), false⟩
  free : t.node? (keyIn dir (scratchName name)) ≠ some .dir

/-- The ways in which a replacement can end, behind the directories that were made. -/
inductive Ending (m : Medium) (t₁ : Tree) (path : String) (bytes : List UInt8) :
    Tree × Except IoFault Unit → Prop where
  /-- The scratch file was not opened. -/
  | unwritten (fault : IoFault) : Ending m t₁ path bytes (t₁, .error fault)
  /-- The writing of it broke off. -/
  | cut {dir name : String} {kept : Nat} {fault : IoFault} (h : t₁.Opens path dir name)
    (hcut : m.writeFault t₁ (scratchPath path name) bytes = some (.cut kept fault)) :
    Ending m t₁ path bytes (t₁.scratched dir name (bytes.take kept), .error fault)
  /-- It was written, could not be moved, and was removed. -/
  | removed {dir name : String} (h : t₁.Opens path dir name) (fault : IoFault) :
    Ending m t₁ path bytes ((t₁.scratched dir name bytes).unscratched dir name, .error fault)
  /-- It was written, and could neither be moved nor be removed. -/
  | kept {dir name : String} {fault refusal : IoFault} (h : t₁.Opens path dir name)
    (hunmoved : m.rename (t₁.scratched dir name bytes) (scratchPath path name) path = .error fault)
    (hkept : m.unlinkFault (t₁.scratched dir name bytes) (scratchPath path name) = some refusal) :
    Ending m t₁ path bytes (t₁.scratched dir name bytes, .error fault)
  | moved {dir name : String} (h : t₁.Opens path dir name)
    (hwalk : (t₁.scratched dir name bytes).walk path = .ok ⟨dir, .name name, false⟩)
    (htarget : (t₁.scratched dir name bytes).node? (keyIn dir name) ≠ some .dir) :
    Ending m t₁ path bytes
      (((t₁.scratched dir name bytes).unscratched dir name).put (keyIn dir name) (.file bytes), .ok ())

section Opening

variable {t₁ : Tree} {path dir name : String} {bytes : List UInt8}

/-- Opening the scratch file puts a file where its name is free, in the directory of the path. -/
theorem opens_of_write {written : Tree} (hname : Path.fileName? path = some name)
    (h : t₁.write (scratchPath path name) bytes = .ok written) :
    ∃ dir, t₁.Opens path dir name ∧ written = t₁.scratched dir name bytes := by
  obtain ⟨dir, file, hwalk, hfree, rfl⟩ := write_eq_ok h
  obtain ⟨dir', hdir, hplace⟩ := walk_scratchPath (not_mem_fileName hname) hwalk
  cases hplace
  exact ⟨dir, ⟨hname, hwalk, hfree⟩, rfl⟩

theorem node?_scratched (bytes : List UInt8) (key : String) :
    (t₁.scratched dir name bytes).node? key =
      if key = keyIn dir (scratchName name) then some (.file bytes) else t₁.node? key :=
  node?_put dir (scratchName name) (.file bytes) key

theorem node?_unscratched (bytes : List UInt8) (key : String) :
    ((t₁.scratched dir name bytes).unscratched dir name).node? key =
      if key = keyIn dir (scratchName name) then none else t₁.node? key := by
  rw [Tree.unscratched, node?_drop, node?_scratched]
  split <;> rfl

theorem spares_unscratched (bytes : List UInt8) : Spares (t₁.scratched dir name bytes)
    ((t₁.scratched dir name bytes).unscratched dir name) [keyIn dir (scratchName name)] := by
  refine spares_drop ?_
  rw [node?_scratched, if_pos rfl]
  nofun

theorem Tree.Opens.spares (h : t₁.Opens path dir name) (bytes : List UInt8) :
    Spares t₁ (t₁.scratched dir name bytes) [keyIn dir (scratchName name)] :=
  spares_put bytes h.free

/-- The scratch file has the key where the way to it ended, whatever became of it since. -/
theorem Tree.Opens.scratch? (h : t₁.Opens path dir name) {t' : Tree} {keys : List String}
    (hspares : Spares t₁ t' keys) : t'.scratch? path = some (keyIn dir (scratchName name)) := by
  rw [Tree.scratch?, h.fileName, Option.bind_some]
  exact target?_eq_some_iff.mpr ⟨dir, _, false, walk_of_spares hspares h.leads, rfl⟩

theorem Tree.Opens.unlink_eq (h : t₁.Opens path dir name) (bytes : List UInt8) :
    (t₁.scratched dir name bytes).unlink (scratchPath path name) =
      .ok ((t₁.scratched dir name bytes).unscratched dir name) := by
  have hwalk := walk_of_spares (h.spares bytes) h.leads
  have hthere : (t₁.scratched dir name bytes).node? (keyIn dir (scratchName name)) =
      some (.file bytes) := by
    rw [node?_scratched, if_pos rfl]
  unfold Tree.unlink
  simp only [hwalk, hthere]
  rfl

/-- The only file that is moved is the scratch file, and it is moved within its directory. -/
theorem Tree.Opens.ending_of_rename (h : t₁.Opens path dir name) (m : Medium) {moved : Tree}
    (hmoved : (t₁.scratched dir name bytes).rename (scratchPath path name) path = .ok moved) :
    Ending m t₁ path bytes (moved, .ok ()) := by
  have hwalk := walk_of_spares (h.spares bytes) h.leads
  obtain ⟨dir₁, file₁, trailing, dir', name', bytes', hfrom, hto, hnode, htarget, rfl⟩ :=
    rename_eq_ok hmoved
  rw [hwalk] at hfrom
  cases hfrom
  rw [node?_scratched, if_pos rfl] at hnode
  cases hnode
  -- the path leads to the directory in which the scratch file stands
  obtain ⟨hname', hdir'⟩ := walk_name hto
  rw [h.fileName] at hname'
  cases hname'
  obtain ⟨dir'', hdir'', hplace⟩ := walk_scratchPath (not_mem_fileName h.fileName) hwalk
  cases hplace
  rw [hdir'] at hdir''
  cases hdir''
  exact .moved h hto htarget

end Opening

/-- **There is no other end**: the directories above are made, and nothing else is done than what
    `Ending` says. -/
theorem ending_writeAtomic (m : Medium) (t : Tree) (path content : String) :
    Ending m (readied m t path) path (Text.encode content) (writeAtomic m t path content) := by
  unfold readied writeAtomic
  simp only
  generalize makeDirs m (directoryOf path).length t (directoryOf path) = made
  obtain ⟨t₁, result⟩ := made
  simp only
  cases result with
  | error fault => exact .unwritten fault
  | ok =>
    cases hname : Path.fileName? path with
    | none => exact .unwritten noFileName
    | some name =>
      simp only
      have hwrites := m.writes t₁ (scratchPath path name) (Text.encode content)
      generalize m.write t₁ (scratchPath path name) (Text.encode content) = written at hwrites ⊢
      cases hwrites with
      | unopened fault => exact .unwritten fault
      | cut hcut hopened =>
        obtain ⟨dir, h, rfl⟩ := opens_of_write hname hopened
        exact .cut h hcut
      | whole hopened =>
        obtain ⟨dir, h, rfl⟩ := opens_of_write hname hopened
        simp only
        cases hmoved : m.rename (t₁.scratched dir name (Text.encode content))
            (scratchPath path name) path with
        | ok moved => exact h.ending_of_rename m (m.rename_eq_ok hmoved)
        | error fault =>
          have hfreed := h.unlink_eq (Text.encode content)
          simp only
          cases hremoved : m.unlink (t₁.scratched dir name (Text.encode content))
              (scratchPath path name) with
          | ok t₂ =>
            rw [m.unlink_eq_ok hremoved] at hfreed
            cases hfreed
            exact .removed h fault
          | error refusal => exact .kept h hmoved (m.unlink_eq_error hfreed hremoved)

/-! ## 5. The tree behind a replacement -/

/-- Behind a replacement that succeeded: the file stands in its directory and holds the content, the
    scratch file is gone, and of all other nodes none has changed and only directories are new. -/
structure Done (t t' : Tree) (path content dir name : String) : Prop where
  fileName : Path.fileName? path = some name
  leads : t'.walk path = .ok ⟨dir, .name name, false⟩
  holds : t'.node? (keyIn dir name) = some (.file (Text.encode content))
  scratch_gone : t'.node? (keyIn dir (scratchName name)) = none
  rest : Widens t t' [keyIn dir name, keyIn dir (scratchName name)]
  keeps_dirs : ∀ key, t.node? key = some .dir → t'.node? key = some .dir

/-- The accidents behind which a scratch file is left in a tree. -/
inductive Medium.Leaves (m : Medium) (t t' : Tree) (path content : String) : Prop
  /-- The writing of it broke off, when the directories had been made. -/
  | cut {name : String} {kept : Nat} {fault : IoFault} (hname : Path.fileName? path = some name)
    (hcut : m.writeFault (readied m t path) (scratchPath path name) (Text.encode content) =
      some (.cut kept fault))
  /-- It could not be moved, and the medium refused to remove it. -/
  | kept {name : String} {fault refusal : IoFault} (hname : Path.fileName? path = some name)
    (hunmoved : m.rename t' (scratchPath path name) path = .error fault)
    (hkept : m.unlinkFault t' (scratchPath path name) = some refusal)

/-- A sound medium leaves none. -/
theorem not_leaves_sound (t t' : Tree) (path content : String) :
    ¬ Medium.sound.Leaves t t' path content := by
  intro h
  cases h with
  | cut _ hcut => cases hcut
  | kept _ _ hkept => cases hkept

/-- Behind a replacement that failed: apart from the scratch file no node has changed and only
    directories are new; the scratch file is not the file itself, and unless an accident left it, it
    holds what it held before if it is there. -/
structure Undone (m : Medium) (t t' : Tree) (path content : String) : Prop where
  rest : Widens t t' (t'.scratch? path).toList
  beside : ∀ key, t'.target? path = some key → t'.scratch? path ≠ some key
  no_new_file : ∀ key bytes, t'.node? key = some (.file bytes) → t.node? key = some (.file bytes) ∨
    t'.scratch? path = some key ∧ m.Leaves t t' path content
  keeps_dirs : ∀ key, t.node? key = some .dir → t'.node? key = some .dir

variable {m : Medium} {t t₁ t' : Tree} {path content dir name : String} {bytes : List UInt8}

/-- A failed replacement on a sound medium adds no file at all. -/
theorem Undone.no_new_file_of_sound (h : Undone .sound t t' path content) {key : String}
    (hfile : t'.node? key = some (.file bytes)) : t.node? key = some (.file bytes) := by
  rcases h.no_new_file key bytes hfile with hold | ⟨-, hleaves⟩
  · exact hold
  · exact absurd hleaves (not_leaves_sound t t' path content)

theorem Tree.Widens.no_new_file (h : Widens t t₁ []) {key : String}
    (hfile : t₁.node? key = some (.file bytes)) : t.node? key = some (.file bytes) := by
  rcases h key List.not_mem_nil with he | ⟨-, hdir⟩
  · exact he ▸ hfile
  · rw [hdir] at hfile
    cases hfile

theorem undone_of_unwritten (h : Widens t t₁ []) : Undone m t t₁ path content where
  rest := h.mono (List.nil_subset _)
  beside _ := scratch?_ne_target
  no_new_file _ _ hfile := .inl (h.no_new_file hfile)
  keeps_dirs _ := h.spares.keeps_dir

theorem undone_of_scratched (h : Widens t t₁ []) (hopens : t₁.Opens path dir name)
    (hleaves : m.Leaves t (t₁.scratched dir name bytes) path content) :
    Undone m t (t₁.scratched dir name bytes) path content where
  rest := by
    rw [hopens.scratch? (hopens.spares bytes)]
    exact (h.mono (List.nil_subset _)).put _ (List.mem_singleton_self _)
  beside _ := scratch?_ne_target
  no_new_file key new hfile := by
    rw [node?_scratched] at hfile
    split at hfile
    · rename_i he
      rw [he]
      exact .inr ⟨hopens.scratch? (hopens.spares bytes), hleaves⟩
    · exact .inl (h.no_new_file hfile)
  keeps_dirs _ hdir := (hopens.spares bytes).keeps_dir (h.spares.keeps_dir hdir)

theorem undone_of_removed (h : Widens t t₁ []) (hopens : t₁.Opens path dir name) :
    Undone m t ((t₁.scratched dir name bytes).unscratched dir name) path content where
  rest := by
    rw [hopens.scratch? ((hopens.spares bytes).trans (spares_unscratched bytes))]
    have hmem : keyIn dir (scratchName name) ∈ (some (keyIn dir (scratchName name))).toList :=
      List.mem_singleton_self _
    exact ((h.mono (List.nil_subset _)).put _ hmem).drop hmem
  beside _ := scratch?_ne_target
  no_new_file key new hfile := by
    rw [node?_unscratched] at hfile
    split at hfile
    · cases hfile
    · exact .inl (h.no_new_file hfile)
  keeps_dirs _ hdir :=
    ((hopens.spares bytes).trans (spares_unscratched bytes)).keeps_dir (h.spares.keeps_dir hdir)

theorem done_of_moved (h : Widens t t₁ []) (hopens : t₁.Opens path dir name)
    (hwalk : (t₁.scratched dir name (Text.encode content)).walk path = .ok ⟨dir, .name name, false⟩)
    (htarget : (t₁.scratched dir name (Text.encode content)).node? (keyIn dir name) ≠ some .dir) :
    Done t (((t₁.scratched dir name (Text.encode content)).unscratched dir name).put (keyIn dir name)
      (.file (Text.encode content))) path content dir name := by
  have hplain := plain_scratchName (not_mem_fileName hopens.fileName)
  have hne : keyIn dir (scratchName name) ≠ keyIn dir name := fun he =>
    ne_scratchName name (keyIn_inj hplain.noSlash (not_mem_fileName hopens.fileName) he).2.symm
  have hput := spares_put (Text.encode content) (node?_drop_ne_dir dir (scratchName name) htarget)
  have hspares := (spares_unscratched (Text.encode content)).trans hput
  exact {
    fileName := hopens.fileName
    leads := walk_of_spares hspares hwalk
    holds := by rw [node?_put, if_pos rfl]
    scratch_gone := by rw [node?_put, if_neg hne, node?_unscratched, if_pos rfl]
    rest := by
      have hmem : keyIn dir (scratchName name) ∈ [keyIn dir name, keyIn dir (scratchName name)] :=
        List.mem_cons_of_mem _ List.mem_cons_self
      exact (((h.mono (List.nil_subset _)).put _ hmem).drop hmem).put _ List.mem_cons_self
    keeps_dirs := fun key hdir =>
      hspares.keeps_dir ((hopens.spares _).keeps_dir (h.spares.keeps_dir hdir)) }

/-- **A replacement is done as a whole or not at all.** -/
theorem done_or_undone (m : Medium) (t : Tree) (path content : String) :
    ((writeAtomic m t path content).2 = .ok () ∧
        ∃ dir name, Done t (writeAtomic m t path content).1 path content dir name) ∨
      ∃ fault, (writeAtomic m t path content).2 = .error fault ∧
        Undone m t (writeAtomic m t path content).1 path content := by
  have hmade := widens_readied m t path
  have hending := ending_writeAtomic m t path content
  generalize writeAtomic m t path content = ended at hending ⊢
  cases hending with
  | unwritten fault => exact .inr ⟨fault, rfl, undone_of_unwritten hmade⟩
  | cut h hcut =>
    exact .inr ⟨_, rfl, undone_of_scratched hmade h (.cut h.fileName hcut)⟩
  | removed h fault => exact .inr ⟨fault, rfl, undone_of_removed hmade h⟩
  | kept h hunmoved hkept =>
    exact .inr ⟨_, rfl, undone_of_scratched hmade h (.kept h.fileName hunmoved hkept)⟩
  | moved h hwalk htarget => exact .inl ⟨rfl, _, _, done_of_moved hmade h hwalk htarget⟩

/-! ## 6. The action -/

/-- The executor of a machine with programs and a file tree on a medium. -/
def executorOf (m : Medium) (config : ExecutorConfig) (source : String) : Executor Tree :=
  { host := Programs.Machine.host m, config, source }

theorem execute_writeFile (ex : Executor Tree) (path content : String) (t : Tree) :
    (ex.execute [.writeFile path content] t).value =
        [⟨.writeFile path content, outcomeOfFile path (ex.host.writeFile path content t).1⟩] ∧
      (ex.execute [.writeFile path content] t).host = (ex.host.writeFile path content t).2 :=
  ⟨rfl, rfl⟩

/-- **A file action replaces a file as a whole or leaves every file as it was.** It runs to its end
    for every medium, tree, path and content: either it succeeds, and the file holds the content in
    the place where the path leads, the scratch file beside it is gone and every other file is as
    before; or it fails with a fault of the system, and all files but the scratch file are as before,
    the one at the path included, and none is new but a scratch file that an accident left. -/
theorem write_action_atomic (m : Medium) (config : ExecutorConfig) (source path content : String)
    (t : Tree) :
    ((((executorOf m config source).execute [.writeFile path content] t).value =
          [⟨.writeFile path content, .success⟩]) ∧
        ∃ dir name, Done t ((executorOf m config source).execute [.writeFile path content] t).host
          path content dir name) ∨
      ∃ fault : IoFault,
        ((executorOf m config source).execute [.writeFile path content] t).value =
            [⟨.writeFile path content, .failed (.io (path ++ ": " ++ fault.text))⟩] ∧
          Undone m t ((executorOf m config source).execute [.writeFile path content] t).host
            path content := by
  obtain ⟨hvalue, hhost⟩ := execute_writeFile (executorOf m config source) path content t
  have hwrite : (executorOf m config source).host.writeFile path content t =
      ((writeAtomic m t path content).2, (writeAtomic m t path content).1) := by
    simp only [executorOf, Programs.Machine.host]
  rw [hvalue, hhost, hwrite]
  simp only
  rcases done_or_undone m t path content with ⟨hok, hdone⟩ | ⟨fault, herror, hundone⟩
  · rw [hok]
    exact .inl ⟨rfl, hdone⟩
  · rw [herror]
    exact .inr ⟨fault, rfl, hundone⟩

/-- A medium without room: a file is made there, and no byte gets into it. -/
def Medium.full : Medium :=
  { Medium.sound with
    writeFault := fun _ _ bytes => if bytes.isEmpty then none else some (.cut 0 (.os 28)) }

/-- A medium that removes nothing. -/
def Medium.clinging : Medium := { Medium.sound with unlinkFault := fun _ _ => some (.os 5) }

/-- **More than directories may be added.** A success adds the file itself where there was none; a
    failure adds the scratch file if it could not be written to its end, or if it could not be moved,
    here onto a directory, and could not be removed. -/
theorem file_action_adds_files :
    ((executorOf .sound {} "").execute [.writeFile "/d/f" "x"] .empty).value =
        [⟨.writeFile "/d/f" "x", .success⟩] ∧
      (Tree.empty.node? "/d/f" = none ∧
        ((executorOf .sound {} "").execute [.writeFile "/d/f" "x"] .empty).host.node? "/d/f" =
          some (.file (Text.encode "x"))) ∧
      ((executorOf .full {} "").execute [.writeFile "/d/f" "x"] .empty).value =
        [⟨.writeFile "/d/f" "x", .failed (.io "/d/f: No space left on device (os error 28)")⟩] ∧
      (Tree.empty.node? "/d/.f.tmp" = none ∧
        ((executorOf .full {} "").execute [.writeFile "/d/f" "x"] .empty).host.node? "/d/.f.tmp" =
          some (.file [])) ∧
      ((executorOf .clinging {} "").execute [.writeFile "/d" "x"] ⟨.ofList [("/d", .dir)]⟩).value =
        [⟨.writeFile "/d" "x", .failed (.io "/d: Is a directory (os error 21)")⟩] ∧
      ((executorOf .clinging {} "").execute [.writeFile "/d" "x"]
          ⟨.ofList [("/d", .dir)]⟩).host.node? "/.d.tmp" = some (.file (Text.encode "x")) := by
  decide +kernel

/-- A missing directory is made; where a directory stands in the way, nothing is left behind. -/
example :
    ((writeAtomic .sound .empty "/a/b" "x").2.isOk,
      (writeAtomic .sound .empty "/a/b" "x").1.nodes.keys,
      (writeAtomic .sound ⟨.ofList [("/a", .dir), ("/a/b", .dir)]⟩ "/a/b" "x").1.nodes.keys) =
    (true, ["/a", "/a/b"], ["/a", "/a/b"]) := by
  decide +kernel

end Converge.Files
