import Converge.Proofs.Feature.Repairs

/-!
# Where drop-in files are put

A plan puts the drop-in file of each unit two names below the directory of the unit files, if the key
of the feature is one name. Nothing looks at the key, and a key may hold separators: then the names
between them are directories of their own, two points lead upwards, and a separator in front leads away
from the directory altogether.

* `components_append`: the components of a path from those of its front;
* `files_of_plan`: a plan writes drop-in files of units of its feature and removes nothing;
* `Inside`: a path is two plain names below a directory;
* **`drop_in_inside_iff`**: the components of every file that a plan writes, for every key; the file is
  inside exactly if the key holds no separator. `drop_in_outside` is a plan that writes elsewhere.
-/

namespace Converge

open Files (Plain IsFront)

/-! ## 1. Components -/

/-- A segment that is not the first counts unless it is empty or a point. -/
theorem components_of_later (start : Nat) (segments : List String) :
    ((segments.zipIdx (start + 1)).filterMap fun p =>
        if Path.counts p.2 p.1 then some (p.2, p.1) else none).map (·.2) =
      segments.filter (Path.counts 1) := by
  induction segments generalizing start with
  | nil => rfl
  | cons segment segments ih =>
    have hcounts : Path.counts (start + 1) segment = Path.counts 1 segment := by simp [Path.counts]
    rw [List.zipIdx_cons, List.filterMap_cons, List.filter_cons, hcounts]
    cases Path.counts 1 segment with
    | true => exact congrArg (segment :: ·) (ih (start + 1))
    | false => exact ih (start + 1)

/-- Behind a separator, every segment counts unless it is empty or a point. -/
theorem components_append_slash (above rest : String) :
    Path.components (above ++ "/" ++ rest) =
      Path.components above ++ (Path.segments rest).filter (Path.counts 1) := by
  obtain ⟨n, hn⟩ : ∃ n, (Path.segments above).length = n + 1 := by
    obtain ⟨p, ps, h⟩ := Files.exists_splitAllChars '/' above.toList
    exact ⟨ps.length, by simp [Path.segments, h]⟩
  unfold Path.components Path.placed
  rw [Files.segments_append, List.zipIdx_append, List.filterMap_append, List.map_append, hn,
    Nat.zero_add, components_of_later]

/-- A separator at the end adds no component. -/
theorem components_slash (above : String) : Path.components (above ++ "/") = Path.components above := by
  have hnone : (Path.segments "").filter (Path.counts 1) = [] := by decide
  rw [← String.append_empty (s := above ++ "/"), components_append_slash, hnone, List.append_nil]

/-- **The components of a path are those of what stands in front and the segments that count.** -/
theorem components_append {front : String} (hfront : IsFront front) (hne : front ≠ "")
    (rest : String) :
    Path.components (front ++ rest) =
      Path.components front ++ (Path.segments rest).filter (Path.counts 1) := by
  obtain ⟨above, rfl⟩ := hfront.resolve_left hne
  rw [components_append_slash, components_slash]

theorem filter_segments_of_plain {name : String} (h : Plain name) :
    (Path.segments name).filter (Path.counts 1) = [name] := by
  have hcounts : Path.counts 1 name = true := by simp [Path.counts, h.ne_empty, h.ne_dot]
  rw [Files.segments_of_plain h, List.filter_singleton, hcounts, cond_true]

/-! ## 2. Units -/

/-- The names of units add no separator to the key of their feature. -/
theorem slash_mem_of_mem_units {s : FeatureScope} {name unit : String} {chips : Nat}
    (h : unit ∈ s.units name chips) : '/' ∈ unit.toList ↔ '/' ∈ name.toList := by
  have hdevice : '/' ∈ (FeatureScope.deviceUnit name).toList ↔ '/' ∈ name.toList := by
    simp [FeatureScope.deviceUnit, String.toList_append]
  have hchip : ∀ chip, '/' ∈ (FeatureScope.chipUnit name chip).toList ↔ '/' ∈ name.toList :=
    fun chip => by
      have hdigits : '/' ∉ Nat.toDigits 10 chip := fun hmem =>
        absurd (Nat.isDigit_of_mem_toDigits (by decide) (by decide) hmem) (by decide)
      simp [FeatureScope.chipUnit, String.toList_append, hdigits]
  unfold FeatureScope.units at h
  split at h
  · rw [List.mem_singleton.mp h, hdevice]
  · rcases List.mem_append.mp h with h | h
    · split at h
      · rw [List.mem_singleton.mp h, hdevice]
      · cases h
    · split at h
      · obtain ⟨chip, -, rfl⟩ := List.mem_map.mp h
        exact hchip chip
      · cases h

/-- The directory of a unit without separators has a plain name. -/
theorem plain_unitDir {unit : String} (h : '/' ∉ unit.toList) : Plain (unit ++ ".d") := by
  have hlast : ∀ other : String, other.toList.getLast? ≠ some 'd' → unit ++ ".d" ≠ other :=
    fun other hother he => by
      refine hother ?_
      rw [← he]
      simp [String.toList_append]
  exact ⟨by simpa [String.toList_append] using h, hlast _ (by decide), hlast _ (by decide),
    hlast _ (by decide)⟩

/-! ## 3. Files of a plan -/

variable {m : FeatureManager} {name : String} {old new : Row} {actions : List Action}

/-- **A plan writes drop-in files of units of its feature, and removes no file**, whatever the old
    row is. -/
theorem files_of_plan (h : m.plan name old new = .ok actions) :
    (∀ path, Action.removeFile path ∉ actions) ∧
    ∀ path content, Action.writeFile path content ∈ actions →
      ∃ f, Feature.ofRow name new = .ok f ∧ ∃ unit ∈ f.units m.chips, path = m.dropInPath unit := by
  unfold FeatureManager.plan at h
  split at h
  · cases h
    unfold FeatureManager.planRemoved
    split <;> simp [FeatureManager.onUnits]
  · split at h
    · cases h
    · rename_i f hf
      cases h
      unfold FeatureManager.planFeature
      refine ⟨fun path => ?_, fun path content hmem => ⟨f, hf, ?_⟩⟩
      · split <;> simp [FeatureManager.onUnits, FeatureManager.dropIns]
      · split at hmem
        · simp [FeatureManager.onUnits] at hmem
        · simp only [FeatureManager.onUnits, FeatureManager.dropIns, List.mem_append, List.mem_map,
            List.mem_flatMap, List.mem_singleton] at hmem
          obtain (⟨unit, hunit, he⟩ | he) | ⟨unit, -, verb, -, he⟩ := hmem
          · exact ⟨unit, hunit, (Action.writeFile.inj he).1.symm⟩
          · cases he
          · cases he

/-! ## 4. Inside and outside -/

/-- The path is two plain names below a directory: the directory of a unit and the drop-in file. -/
structure Inside (dir unit path : String) : Prop where
  absolute : Path.isAbsolute path = true
  plain : ∀ part ∈ [unit ++ ".d", "auto_restart.conf"], Plain part
  components_eq :
    Path.components path = Path.components dir ++ [unit ++ ".d", "auto_restart.conf"]

section Paths

variable (hdir : Path.isAbsolute m.unitDir = true) {unit : String}

include hdir

theorem ne_empty_of_isAbsolute : m.unitDir ≠ "" := fun he => by
  rw [he] at hdir
  cases hdir

/-- The front of a drop-in file has the components of the directory of the unit files. -/
theorem components_dropInFront :
    m.dropInFront false ≠ "" ∧ Path.components (m.dropInFront false) = Path.components m.unitDir := by
  unfold FeatureManager.dropInFront
  rw [if_neg Bool.false_ne_true]
  split
  · exact ⟨ne_empty_of_isAbsolute hdir, rfl⟩
  · exact ⟨by simp, components_slash m.unitDir⟩

/-- **The components of a drop-in file**, for a unit that does not lead away. -/
theorem components_dropInPath (hunit : Path.isAbsolute unit = false) :
    Path.components (m.dropInPath unit) =
      Path.components m.unitDir ++ (Path.segments (unit ++ ".d")).filter (Path.counts 1) ++
        ["auto_restart.conf"] := by
  obtain ⟨hne, hfront⟩ := components_dropInFront hdir
  have hends : ".d" ++ "/" ++ "auto_restart.conf" = ".d/auto_restart.conf" := rfl
  have hpath : m.dropInPath unit =
      m.dropInFront false ++ (unit ++ ".d") ++ "/" ++ "auto_restart.conf" := by
    rw [dropInPath_eq, hunit, ← hends]
    simp only [String.append_assoc]
  rw [hpath, components_append_slash, filter_segments_of_plain plain_autoRestart,
    components_append (isFront_dropInFront m) hne, hfront]

/-- A drop-in file is an absolute path. -/
theorem isAbsolute_dropInPath : Path.isAbsolute (m.dropInPath unit) = true := by
  rw [dropInPath_eq]
  unfold FeatureManager.dropInFront
  by_cases hunit : Path.isAbsolute unit = true
  · rw [if_pos hunit, String.empty_append, isAbsolute_append_of_ne (c := '.') rfl (by decide), hunit]
  · have hhead : ∀ rest, Path.isAbsolute (m.unitDir ++ rest) = true := fun rest => by
      unfold Path.isAbsolute at hdir ⊢
      rw [String.toList_append, List.head?_append, beq_iff_eq.mp hdir]
      rfl
    rw [if_neg hunit]
    split
    · rw [String.append_assoc, hhead]
    · rw [String.append_assoc, String.append_assoc, hhead]

theorem inside_of_not_mem (hunit : '/' ∉ unit.toList) : Inside m.unitDir unit (m.dropInPath unit) := by
  have hrelative : Path.isAbsolute unit = false :=
    beq_eq_false_iff_ne.mpr fun hhead => hunit (List.mem_of_mem_head? hhead)
  have hplain := plain_unitDir hunit
  refine ⟨isAbsolute_dropInPath hdir, by simp [hplain, plain_autoRestart], ?_⟩
  rw [components_dropInPath hdir hrelative, filter_segments_of_plain hplain, List.append_assoc]
  rfl

end Paths

/-- **Where the files of a plan are put**, on a device whose unit files are in an absolute directory,
    for every key and all rows. Each is the drop-in file of a unit of the feature. It is inside exactly
    if the key holds no separator; a key that begins with one leads away from the directory; with any
    other key the segments of the unit stand behind the components of the directory. No file is
    removed. -/
theorem drop_in_inside_iff (hdir : Path.isAbsolute m.unitDir = true)
    (hplan : m.plan name old new = .ok actions) :
    (∀ path, Action.removeFile path ∉ actions) ∧
    ∀ path content, Action.writeFile path content ∈ actions →
      ∃ f, Feature.ofRow name new = .ok f ∧ ∃ unit ∈ f.units m.chips,
        (Inside m.unitDir unit path ↔ '/' ∉ name.toList) ∧
        (Path.isAbsolute name = true → path = unit ++ ".d/auto_restart.conf") ∧
        (Path.isAbsolute name = false →
          Path.components path = Path.components m.unitDir ++
            (Path.segments (unit ++ ".d")).filter (Path.counts 1) ++ ["auto_restart.conf"]) := by
  obtain ⟨hremoved, hwritten⟩ := files_of_plan hplan
  refine ⟨hremoved, fun path content hmem => ?_⟩
  obtain ⟨f, hf, unit, hunit, rfl⟩ := hwritten path content hmem
  have hunits : unit ∈ f.scope.units name m.chips := by
    rw [← (Feature.ofRow_parts hf).1]
    exact hunit
  have hslash := slash_mem_of_mem_units hunits
  have habsolute := isAbsolute_of_mem_units hunits
  refine ⟨f, hf, unit, hunit, ⟨fun hinside hname => ?_, fun hname => ?_⟩, fun hname => ?_,
    fun hname => components_dropInPath hdir (habsolute.trans hname)⟩
  · refine (hinside.plain (unit ++ ".d") List.mem_cons_self).noSlash ?_
    rw [String.toList_append]
    exact List.mem_append_left _ (hslash.mpr hname)
  · exact inside_of_not_mem hdir (hslash.not.mpr hname)
  · rw [dropInPath_eq, habsolute, hname]
    exact congrArg (· ++ ".d/auto_restart.conf") String.empty_append

/-- Two chips, and a directory that is named with a separator at the end. -/
def slashed : FeatureManager := ⟨"/etc/systemd/system/", 2⟩

/-- The file of the unit for a chip is two names below the directory. -/
theorem drop_in_inside_chip :
    Path.isAbsolute slashed.unitDir = true ∧
    (∃ actions, slashed.plan "bgp" .empty allRestart = .ok actions ∧
      Action.writeFile "/etc/systemd/system/bgp@1.service.d/auto_restart.conf"
        RestartPolicy.always.dropIn ∈ actions) ∧
    ∃ unit, Inside slashed.unitDir unit
      "/etc/systemd/system/bgp@1.service.d/auto_restart.conf" := by
  have hdir : Path.isAbsolute slashed.unitDir = true := by decide
  obtain ⟨actions, hplan, hmem⟩ : ∃ actions, slashed.plan "bgp" .empty allRestart = .ok actions ∧
      Action.writeFile "/etc/systemd/system/bgp@1.service.d/auto_restart.conf"
        RestartPolicy.always.dropIn ∈ actions := ⟨_, rfl, by decide +kernel⟩
  obtain ⟨-, -, unit, -, hinside, -⟩ := (drop_in_inside_iff hdir hplan).2 _ _ hmem
  exact ⟨hdir, ⟨actions, hplan, hmem⟩, unit, hinside.mpr (by decide)⟩

/-- **Keys that lead elsewhere**: one names a directory of its own, one climbs out of the directory of
    the unit files. The files are not two components below it. -/
theorem drop_in_outside :
    Path.isAbsolute twoChips.manager.unitDir = true ∧
    (∃ actions, twoChips.manager.plan "/etc/cron.d/x" .empty deviceRestarts = .ok actions ∧
      Action.writeFile "/etc/cron.d/x.service.d/auto_restart.conf" RestartPolicy.always.dropIn ∈
        actions) ∧
    (∃ actions, twoChips.manager.plan "../../cron.d/x" .empty deviceRestarts = .ok actions ∧
      Action.writeFile "/etc/systemd/system/../../cron.d/x.service.d/auto_restart.conf"
        RestartPolicy.always.dropIn ∈ actions) ∧
    ∀ path ∈ ["/etc/cron.d/x.service.d/auto_restart.conf",
        "/etc/systemd/system/../../cron.d/x.service.d/auto_restart.conf"],
      ∀ dir file, Path.components path ≠
        Path.components twoChips.manager.unitDir ++ [dir, file] := by
  refine ⟨by decide, ⟨_, rfl, by decide +kernel⟩, ⟨_, rfl, by decide +kernel⟩, ?_⟩
  have hlengths : ∀ path ∈ ["/etc/cron.d/x.service.d/auto_restart.conf",
      "/etc/systemd/system/../../cron.d/x.service.d/auto_restart.conf"],
      (Path.components path).length ≠ (Path.components twoChips.manager.unitDir).length + 2 := by
    decide +kernel
  intro path hpath dir file he
  refine hlengths path hpath ?_
  rw [he, List.length_append]
  rfl

end Converge
