import Converge.Proofs.Files.Walk

/-!
# Replacing a file, seen through reading

* `Tree.Spares`: everything in a tree stays as it was, apart from the files with some keys; each
  operation of the system spares all but the nodes that it names;
* `Tree.walk_of_spares`, `Tree.read_of_spares`: what is spared is found as before;
* `Replaced`: the ways in which a replacement can end, and what each has done; there is no other
  (`replaced_writeAtomic`);
* **`Replaced.read_of_ok`**: a file that was replaced holds the new content; **`Replaced.read_of_error`**:
  if the replacement fails, the file is left as it was; **`Replaced.read_of_apart`**: so is a file that
  is apart from it and from the scratch file beside it.
-/

namespace Converge.Files

namespace Tree

variable {t t' : Tree}

/-! ## 1. Nodes -/

theorem keyIn_isEmpty (dir name : String) : (keyIn dir name).isEmpty = false := by
  refine Bool.eq_false_iff.mpr fun h => ?_
  have hlength := congrArg String.length (String.isEmpty_iff.mp h)
  simp [keyIn] at hlength

theorem node?_put (dir name : String) (n : Node) (key : String) :
    (t.put (keyIn dir name) n).node? key = if key = keyIn dir name then some n else t.node? key := by
  unfold node? put
  rw [SortedMap.get?_insert]
  by_cases hkey : key = keyIn dir name
  · rw [hkey, keyIn_isEmpty]
    simp
  · rw [if_neg hkey, if_neg hkey]

theorem node?_drop (dir name key : String) :
    (t.drop (keyIn dir name)).node? key = if key = keyIn dir name then none else t.node? key := by
  unfold node? drop
  rw [SortedMap.get?_erase]
  by_cases hkey : key = keyIn dir name
  · rw [hkey, keyIn_isEmpty]
    simp
  · rw [if_neg hkey, if_neg hkey]

/-- Removing a node makes no directory. -/
theorem node?_drop_ne_dir (dir name : String) {key : String} (h : t.node? key ≠ some .dir) :
    (t.drop (keyIn dir name)).node? key ≠ some .dir := by
  rw [node?_drop]
  split
  · nofun
  · exact h

/-- Everything in the tree stays as it was, apart from the files with the given keys. -/
def Spares (t t' : Tree) (keys : List String) : Prop :=
  ∀ key n, t.node? key = some n → n = .dir ∨ key ∉ keys → t'.node? key = some n

theorem Spares.refl (t : Tree) (keys : List String) : Spares t t keys := fun _ _ h _ => h

theorem Spares.trans {t'' : Tree} {keys keys' : List String} (h : Spares t t' keys)
    (h' : Spares t' t'' keys') : Spares t t'' (keys ++ keys') := by
  intro key n hn hkey
  rw [List.mem_append, not_or] at hkey
  exact h' key n (h key n hn (hkey.imp_right And.left)) (hkey.imp_right And.right)

/-- Putting a file where no directory is. -/
theorem spares_put {dir name : String} (content : List UInt8)
    (h : t.node? (keyIn dir name) ≠ some .dir) :
    Spares t (t.put (keyIn dir name) (.file content)) [keyIn dir name] := by
  intro key n hn hkey
  rw [node?_put]
  split
  · rename_i he
    rw [List.mem_singleton] at hkey
    rcases hkey with rfl | hne
    · exact absurd (he ▸ hn) h
    · exact absurd he hne
  · exact hn

theorem spares_drop {dir name : String} (h : t.node? (keyIn dir name) ≠ some .dir) :
    Spares t (t.drop (keyIn dir name)) [keyIn dir name] := by
  intro key n hn hkey
  rw [node?_drop]
  split
  · rename_i he
    rw [List.mem_singleton] at hkey
    rcases hkey with rfl | hne
    · exact absurd (he ▸ hn) h
    · exact absurd he hne
  · exact hn

/-! ## 2. What is spared is found as before -/

theorem enter_of_spares {keys : List String} (h : Spares t t' keys) {dir part next : String}
    (he : t.enter dir part = .ok next) : t'.enter dir part = .ok next := by
  unfold enter at he ⊢
  split
  · rwa [if_pos ‹_›] at he
  split
  · rwa [if_neg ‹_›, if_pos ‹_›] at he
  split
  · rw [if_neg ‹_›, if_neg ‹_›, if_pos ‹_›] at he
    cases he
  rw [if_neg ‹_›, if_neg ‹_›, if_neg ‹_›] at he
  split at he
  · cases he
  · rename_i hdir
    rw [h _ _ hdir (.inl rfl)]
    exact he
  · cases he

theorem walkParts_of_spares {keys : List String} (h : Spares t t' keys) :
    ∀ {parts : List String} {dir : String} {r : String × Option String},
      t.walkParts dir parts = .ok r → t'.walkParts dir parts = .ok r
  | [], _, _, hw => hw
  | [_], _, _, hw => hw
  | part :: next :: rest, dir, r, hw => by
    rw [walkParts_cons dir part (by simp)] at hw ⊢
    cases henter : t.enter dir part with
    | error e =>
      rw [henter] at hw
      cases hw
    | ok below =>
      rw [henter] at hw
      rw [enter_of_spares h henter]
      exact walkParts_of_spares h hw

/-- A path that leads somewhere goes on to lead there. -/
theorem walk_of_spares {keys : List String} (h : Spares t t' keys) {path : String} {place : Place}
    (hw : t.walk path = .ok place) : t'.walk path = .ok place := by
  unfold walk at hw ⊢
  split
  · rwa [if_pos ‹_›] at hw
  split
  · rwa [if_neg ‹_›, if_pos ‹_›] at hw
  split
  · rwa [if_neg ‹_›, if_neg ‹_›, if_pos ‹_›] at hw
  rw [if_neg ‹_›, if_neg ‹_›, if_neg ‹_›] at hw
  cases hparts : t.walkParts "" ((Path.segments path).filter fun s => !s.isEmpty) with
  | error e =>
    simp only [hparts] at hw
    cases hw
  | ok r =>
    simp only [hparts] at hw
    simp only [walkParts_of_spares h hparts]
    exact hw

theorem target?_eq_some_iff {path key : String} :
    t.target? path = some key ↔
      ∃ dir name trailing, t.walk path = .ok ⟨dir, .name name, trailing⟩ ∧ key = keyIn dir name := by
  unfold target?
  split
  · rename_i dir name trailing hwalk
    constructor
    · intro he
      exact ⟨dir, name, trailing, hwalk, (Option.some.inj he).symm⟩
    · rintro ⟨dir', name', trailing', hwalk', rfl⟩
      rw [hwalk] at hwalk'
      cases hwalk'
      rfl
  · rename_i hnot
    exact ⟨nofun, fun ⟨dir, name, trailing, hwalk, _⟩ => absurd hwalk (hnot dir name trailing)⟩

theorem target?_of_spares {keys : List String} (h : Spares t t' keys) {path key : String}
    (ht : t.target? path = some key) : t'.target? path = some key := by
  obtain ⟨dir, name, trailing, hwalk, rfl⟩ := target?_eq_some_iff.mp ht
  exact target?_eq_some_iff.mpr ⟨dir, name, trailing, walk_of_spares h hwalk, rfl⟩

theorem read_eq_ok_iff {path : String} {bytes : List UInt8} :
    t.read path = .ok bytes ↔ ∃ dir name, t.walk path = .ok ⟨dir, .name name, false⟩ ∧
      t.node? (keyIn dir name) = some (.file bytes) := by
  unfold read
  constructor
  · intro h
    split at h
    · cases h
    · cases h
    · rename_i dir name trailing hwalk
      split at h
      · cases h
      · cases h
      · rename_i content hnode
        cases trailing with
        | true => cases h
        | false =>
          cases h
          exact ⟨dir, name, hwalk, hnode⟩
  · rintro ⟨dir, name, hwalk, hnode⟩
    simp only [hwalk, hnode]
    rfl

/-- A file that is spared is read as before. -/
theorem read_of_spares {keys : List String} (h : Spares t t' keys) {path : String}
    {bytes : List UInt8} (hread : t.read path = .ok bytes)
    (hkeys : ∀ key, t.target? path = some key → key ∉ keys) : t'.read path = .ok bytes := by
  obtain ⟨dir, name, hwalk, hnode⟩ := read_eq_ok_iff.mp hread
  have hkey := hkeys _ (target?_eq_some_iff.mpr ⟨dir, name, false, hwalk, rfl⟩)
  exact read_eq_ok_iff.mpr ⟨dir, name, walk_of_spares h hwalk, h _ _ hnode (.inr hkey)⟩

/-! ## 3. What the operations do -/

theorem spares_makeDir {path : String} (h : t.makeDir path = .ok t') : Spares t t' [] := by
  unfold makeDir at h
  split at h
  · cases h
  · cases h
  · split at h
    · cases h
    · rename_i hfree
      cases h
      intro key n hn _
      rw [node?_put]
      split
      · rename_i he
        rw [he, hfree] at hn
        cases hn
      · exact hn

theorem write_eq_ok {path : String} {content : List UInt8} (h : t.write path content = .ok t') :
    ∃ dir name, t.walk path = .ok ⟨dir, .name name, false⟩ ∧ t.node? (keyIn dir name) ≠ some .dir ∧
      t' = t.put (keyIn dir name) (.file content) := by
  unfold write at h
  split at h
  · cases h
  · cases h
  · cases h
  · rename_i dir name hwalk
    split at h
    · cases h
    · rename_i hnode
      cases h
      exact ⟨dir, name, hwalk, fun hdir => hnode hdir, rfl⟩

theorem unlink_eq_ok {path : String} (h : t.unlink path = .ok t') :
    ∃ dir name, t.walk path = .ok ⟨dir, .name name, false⟩ ∧ t.node? (keyIn dir name) ≠ some .dir ∧
      t' = t.drop (keyIn dir name) := by
  unfold unlink at h
  split at h
  · cases h
  · cases h
  · rename_i dir name trailing hwalk
    split at h
    · cases h
    · cases h
    · rename_i content hnode
      cases trailing with
      | true => cases h
      | false =>
        cases h
        exact ⟨dir, name, hwalk, by rw [hnode]; nofun, rfl⟩

theorem rename_eq_ok {source target : String} (h : t.rename source target = .ok t') :
    ∃ dir name trailing dir' name' content, t.walk source = .ok ⟨dir, .name name, trailing⟩ ∧
      t.walk target = .ok ⟨dir', .name name', false⟩ ∧
      t.node? (keyIn dir name) = some (.file content) ∧ t.node? (keyIn dir' name') ≠ some .dir ∧
      t' = (t.drop (keyIn dir name)).put (keyIn dir' name') (.file content) := by
  unfold rename at h
  split at h
  · cases h
  · cases h
  · cases h
  · cases h
  · rename_i dir name trailing dir' name' trailing' hsource htarget
    split at h
    · cases h
    · cases h
    · rename_i content hnode
      cases trailing' with
      | true => cases h
      | false =>
        rw [if_neg Bool.false_ne_true] at h
        split at h
        · cases h
        · rename_i hfree
          cases h
          exact ⟨dir, name, trailing, dir', name', content, hsource, htarget, hnode,
            fun hdir => hfree hdir, rfl⟩

end Tree

open Files.Tree

/-- Making directories spares everything. -/
theorem spares_makeDirs (m : Medium) : ∀ (fuel : Nat) (t : Tree) (path : String),
    Spares t (makeDirs m fuel t path).1 []
  | fuel, t, path => by
    unfold makeDirs
    split
    · exact .refl _ _
    split
    · exact spares_makeDir (m.makeDir_eq_ok ‹_›)
    split
    · -- the directory above is missing
      split
      · rename_i fuel above _
        have habove := spares_makeDirs m fuel t above
        split
        · rename_i hmade
          rwa [hmade] at habove
        · rename_i hmade
          rw [hmade] at habove
          split
          · exact habove.trans (spares_makeDir (m.makeDir_eq_ok ‹_›))
          · split <;> exact habove
      · exact .refl _ _
    · split <;> exact .refl _ _

/-! ## 4. Replacing a file -/

/-- A file stays as it was if all that is not spared is at keys that a path apart from its own names. -/
theorem read_of_apart {t t' : Tree} {p path : String} {key : String} {bytes : List UInt8}
    (h : Spares t t' [key]) (hkey : t.target? p = some key) (hapart : Apart p path)
    (hread : t.read path = .ok bytes) : t'.read path = .ok bytes :=
  read_of_spares h hread fun _ hk hmem =>
    hapart t key hkey (hk.trans (congrArg some (List.mem_singleton.mp hmem)))

/-- Removing a file leaves files alone that are apart from it. -/
theorem read_unlink_of_apart {t t' : Tree} {p path : String} {bytes : List UInt8}
    (h : t.unlink p = .ok t') (hapart : Apart p path) (hread : t.read path = .ok bytes) :
    t'.read path = .ok bytes := by
  obtain ⟨dir, name, hwalk, hnode, rfl⟩ := unlink_eq_ok h
  exact read_of_apart (spares_drop hnode) (target?_eq_some_iff.mpr ⟨dir, name, _, hwalk, rfl⟩)
    hapart hread

theorem read_write_of_apart {t t' : Tree} {p path : String} {content bytes : List UInt8}
    (h : t.write p content = .ok t') (hapart : Apart p path) (hread : t.read path = .ok bytes) :
    t'.read path = .ok bytes := by
  obtain ⟨dir, name, hwalk, hnode, rfl⟩ := write_eq_ok h
  exact read_of_apart (spares_put content hnode) (target?_eq_some_iff.mpr ⟨dir, name, _, hwalk, rfl⟩)
    hapart hread

/-- Moving a file leaves files alone that are apart from where it was and from where it goes. -/
theorem read_rename_of_apart {t t' : Tree} {source target path : String} {bytes : List UInt8}
    (h : t.rename source target = .ok t') (hsource : Apart source path)
    (htarget : Apart target path) (hread : t.read path = .ok bytes) :
    t'.read path = .ok bytes := by
  obtain ⟨dir, name, trailing, dir', name', content, hfrom, hto, hnode, hfree, rfl⟩ :=
    rename_eq_ok h
  have hdrop : Spares t (t.drop (keyIn dir name)) [keyIn dir name] :=
    spares_drop (by rw [hnode]; nofun)
  have hread' := read_of_apart hdrop (target?_eq_some_iff.mpr ⟨dir, name, _, hfrom, rfl⟩)
    hsource hread
  exact read_of_apart (spares_put content (node?_drop_ne_dir dir name hfree))
    (target?_of_spares hdrop (target?_eq_some_iff.mpr ⟨dir', name', _, hto, rfl⟩)) htarget hread'

/-- What replacing a file can come to. -/
inductive Replaced (t : Tree) (path content : String) : Tree × Except IoFault Unit → Prop where
  /-- The scratch file was not written. -/
  | unwritten {t₁ : Tree} (hmade : Spares t t₁ []) (fault : IoFault) :
    Replaced t path content (t₁, .error fault)
  /-- The writing of it broke off. -/
  | cut {t₁ t₂ : Tree} (hmade : Spares t t₁ []) {name : String}
    (hname : Path.fileName? path = some name) {kept : Nat}
    (hwritten : t₁.write (scratchPath path name) ((Text.encode content).take kept) = .ok t₂)
    (fault : IoFault) : Replaced t path content (t₂, .error fault)
  /-- It was written and could not be moved into place. -/
  | unmoved {t₁ written t₂ : Tree} (hmade : Spares t t₁ []) {name : String}
    (hname : Path.fileName? path = some name)
    (hwritten : t₁.write (scratchPath path name) (Text.encode content) = .ok written)
    (hend : t₂ = written ∨ written.unlink (scratchPath path name) = .ok t₂) (fault : IoFault) :
    Replaced t path content (t₂, .error fault)
  | moved {t₁ written moved : Tree} (hmade : Spares t t₁ []) {name : String}
    (hname : Path.fileName? path = some name)
    (hwritten : t₁.write (scratchPath path name) (Text.encode content) = .ok written)
    (hmoved : written.rename (scratchPath path name) path = .ok moved) :
    Replaced t path content (moved, .ok ())

theorem replaced_writeAtomic (m : Medium) (t : Tree) (path content : String) :
    Replaced t path content (writeAtomic m t path content) := by
  have hmade := spares_makeDirs m (directoryOf path).length t (directoryOf path)
  unfold writeAtomic
  simp only
  generalize makeDirs m (directoryOf path).length t (directoryOf path) = made at hmade ⊢
  obtain ⟨t₁, result⟩ := made
  cases result with
  | error fault => exact .unwritten hmade fault
  | ok =>
    cases hname : Path.fileName? path with
    | none => exact .unwritten hmade noFileName
    | some name =>
      simp only
      have hwrites := m.writes t₁ (scratchPath path name) (Text.encode content)
      generalize m.write t₁ (scratchPath path name) (Text.encode content) = written at hwrites ⊢
      cases hwrites with
      | unopened fault => exact .unwritten hmade fault
      | @cut _ _ fault hcut hopened => exact .cut hmade hname hopened fault
      | @whole written hwritten =>
        simp only
        cases hmoved : m.rename written (scratchPath path name) path with
        | ok moved => exact .moved hmade hname hwritten (m.rename_eq_ok hmoved)
        | error fault =>
          simp only
          cases hremoved : m.unlink written (scratchPath path name) with
          | ok t₂ => exact .unmoved hmade hname hwritten (.inr (m.unlink_eq_ok hremoved)) fault
          | error _ => exact .unmoved hmade hname hwritten (.inl rfl) fault

section Reading

variable {t t' : Tree} {path content : String}

/-- **A file that was replaced holds the new content.** -/
theorem Replaced.read_of_ok (h : Replaced t path content (t', .ok ())) :
    t'.read path = .ok (Text.encode content) := by
  cases h with
  | @moved t₁ written _ hmade name hname hwritten hmoved =>
    obtain ⟨dir, file, hwalk, hfree, rfl⟩ := write_eq_ok hwritten
    obtain ⟨dir₁, file₁, trailing, dir', file', bytes, hfrom, hto, hnode, hnodir, rfl⟩ :=
      rename_eq_ok hmoved
    -- the scratch file is where it was written
    have hsame := walk_of_spares (spares_put (Text.encode content) hfree) hwalk
    rw [hfrom] at hsame
    cases hsame
    rw [node?_put, if_pos rfl] at hnode
    cases hnode
    let scratched := t₁.put (keyIn dir file) (.file (Text.encode content))
    have hdrop : Spares scratched (scratched.drop (keyIn dir file)) [keyIn dir file] := by
      refine spares_drop ?_
      rw [node?_put, if_pos rfl]
      nofun
    have hput := spares_put (Text.encode content) (node?_drop_ne_dir dir file hnodir)
    exact read_eq_ok_iff.mpr ⟨dir', file', walk_of_spares (hdrop.trans hput) hto,
      by rw [node?_put, if_pos rfl]⟩

variable {q : String} {bytes : List UInt8}

/-- **If the replacement fails, every file is left as it was that is apart from the scratch file.** -/
theorem Replaced.read_of_error {fault : IoFault} (h : Replaced t path content (t', .error fault))
    (hscratch : ∀ name, Path.fileName? path = some name → Apart (scratchPath path name) q)
    (hread : t.read q = .ok bytes) : t'.read q = .ok bytes := by
  cases h with
  | unwritten hmade => exact read_of_spares hmade hread fun _ _ => List.not_mem_nil
  | cut hmade hname hwritten =>
    exact read_write_of_apart hwritten (hscratch _ hname)
      (read_of_spares hmade hread fun _ _ => List.not_mem_nil)
  | unmoved hmade hname hwritten hend =>
    have hthen := read_write_of_apart hwritten (hscratch _ hname)
      (read_of_spares hmade hread fun _ _ => List.not_mem_nil)
    rcases hend with rfl | hremoved
    · exact hthen
    · exact read_unlink_of_apart hremoved (hscratch _ hname) hthen

/-- **Every file is left as it was that is apart from the target and from the scratch file.** -/
theorem Replaced.read_of_apart {result : Except IoFault Unit}
    (h : Replaced t path content (t', result)) (hapart : Apart path q)
    (hscratch : ∀ name, Path.fileName? path = some name → Apart (scratchPath path name) q)
    (hread : t.read q = .ok bytes) : t'.read q = .ok bytes := by
  cases result with
  | error fault => exact h.read_of_error hscratch hread
  | ok =>
    cases h with
    | moved hmade hname hwritten hmoved =>
      exact read_rename_of_apart hmoved (hscratch _ hname) hapart
        (read_write_of_apart hwritten (hscratch _ hname)
          (read_of_spares hmade hread fun _ _ => List.not_mem_nil))

end Reading

end Converge.Files
