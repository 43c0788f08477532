import Converge.Proofs.Feature.DropIns

/-!
# The order within a plan

The plan for a row that describes a feature, from any old row: a row that the policy would refuse is as
good as one that it would accept.

* `FeatureScope.nodup_units`: no two units of a feature have one name;
* `Feature.verbs`, `Feature.KeptBy`: which verbs the units get, and when their drop-in files stay;
* `verbsOn_onUnits_of_nodup`, `contentsAt_dropIns`: what the two parts of a plan do to one unit and to
  one file;
* `FeatureManager.Orderly`: what is asked of a plan;
* **`plan_in_order`**: every plan for such a row is as asked, and a row without one is a row that
  describes no feature.
-/

namespace Converge

open FeatureManager (bringUp takeDown onUnits)

/-! ## 1. Names of units -/

namespace FeatureScope

theorem chipUnit_injective (name : String) : Function.Injective (chipUnit name) := by
  intro chip other h
  have hdigits : toString chip = toString other :=
    (String.append_right_inj _).mp ((String.append_left_inj _).mp h)
  have hlists : Nat.toDigits 10 chip = Nat.toDigits 10 other := by
    simpa using congrArg String.toList hdigits
  simpa using congrArg (fun digits => Nat.ofDigitChars 10 digits 0) hlists

/-- What follows the name of the feature is a point in one unit and an at sign in the other. -/
theorem deviceUnit_ne_chipUnit (name : String) (chip : Nat) :
    deviceUnit name ≠ chipUnit name chip := by
  intro h
  have hlists := congrArg String.toList h
  simp only [deviceUnit, chipUnit, String.toList_append, List.append_assoc] at hlists
  have hheads := congrArg List.head? (List.append_cancel_left hlists)
  simp at hheads

/-- **The units of a feature have different names**, whatever the name of the feature and however many
    chips there are. -/
theorem nodup_units (s : FeatureScope) (name : String) (chips : Nat) :
    (s.units name chips).Nodup := by
  have hchips : ((List.range chips).map (chipUnit name)).Nodup :=
    List.nodup_range.map (chipUnit_injective name)
  unfold units
  split
  · exact List.nodup_singleton _
  · refine List.nodup_append.mpr ⟨?_, ?_, fun unit hunit other hother => ?_⟩
    · split
      · exact List.nodup_singleton _
      · exact List.nodup_nil
    · split
      · exact hchips
      · exact List.nodup_nil
    · -- the one unit for the device against those for the chips
      split at hunit
      · split at hother
        · obtain ⟨chip, -, rfl⟩ := List.mem_map.mp hother
          rw [List.mem_singleton.mp hunit]
          exact deviceUnit_ne_chipUnit name chip
        · cases hother
      · cases hunit

end FeatureScope

/-! ## 2. What a plan is to do -/

/-- The verbs that every unit of the feature gets. -/
def Feature.verbs (f : Feature) : List UnitVerb :=
  if f.state.isEnabled then [.unmask, .enable, .start] else [.stop, .disable, .mask]

/-- The old row is not empty, and has the restart setting of the feature. -/
def Feature.KeptBy (f : Feature) (old : Row) : Prop :=
  old.isEmpty = false ∧ RestartPolicy.ofRow old = .ok f.restart

/-- The unit and the verb of an action on a unit. -/
def Action.onUnit? : Action → Option (String × UnitVerb)
  | .service unit verb => some (unit, verb)
  | _ => none

/-- The two may follow each other: nothing is done to a unit before a reload, and no file is written
    after one. -/
def Action.MayPrecede (earlier later : Action) : Prop :=
  (later = .managerReload → earlier.onUnit? = none) ∧
  (earlier = .managerReload → ∀ path content, later ≠ .writeFile path content)

theorem leftBehind_iff_keptBy (f : Feature) (old : Row) :
    FeatureManager.leftBehind old f.restart = true ↔ f.KeptBy old := by
  unfold FeatureManager.leftBehind Feature.KeptBy
  cases RestartPolicy.ofRow old with
  | error e => simp
  | ok restart => simp

/-- **An orderly plan**: what is asked of the plan for a feature, from an old row. -/
structure FeatureManager.Orderly (m : FeatureManager) (old : Row) (f : Feature)
    (actions : List Action) : Prop where
  /-- No unit is named twice. -/
  nodup : (f.units m.chips).Nodup
  /-- If the drop-in files are kept, there is nothing but the verbs, unit for unit. -/
  kept : f.KeptBy old → actions =
    (f.units m.chips).flatMap fun unit => f.verbs.map (Action.service unit)
  /-- Else the drop-in file of each unit and one reload stand before them. -/
  renewed : ¬ f.KeptBy old → actions =
    (f.units m.chips).map (fun unit => .writeFile (m.dropInPath unit) f.restart.dropIn) ++
      .managerReload :: (f.units m.chips).flatMap fun unit => f.verbs.map (Action.service unit)
  /-- Then each unit has its file written once. -/
  written_once : ¬ f.KeptBy old → ∀ unit ∈ f.units m.chips,
    contentsAt (m.dropInPath unit) actions = [f.restart.dropIn]
  /-- There is a reload for the files, and none without them. -/
  reloads : (f.KeptBy old → actions.count .managerReload = 0) ∧
    (¬ f.KeptBy old → actions.count .managerReload = 1)
  /-- A reload stands behind the files and before everything that is done to a unit. -/
  reload_between : actions.Pairwise Action.MayPrecede
  /-- Each unit of the feature gets its verbs once, and every other unit none. -/
  verbs : ∀ unit, verbsOn unit actions = if unit ∈ f.units m.chips then f.verbs else []
  /-- Nothing is written but the drop-in files, and nothing else is done. -/
  touched : ∀ a ∈ actions, a = .managerReload ∨ ∃ unit ∈ f.units m.chips,
    a = .writeFile (m.dropInPath unit) f.restart.dropIn ∨ ∃ verb ∈ f.verbs, a = .service unit verb
  /-- What is done to units does not depend on the old row. -/
  on_units : actions.filterMap Action.onUnit? =
    (f.units m.chips).flatMap fun unit => f.verbs.map fun verb => (unit, verb)

/-! ## 3. The two parts of a plan -/

section Parts

variable {m : FeatureManager} {restart : RestartPolicy} {verbs : List UnitVerb} {units : List String}

theorem mem_onUnits {a : Action} :
    a ∈ onUnits verbs units ↔ ∃ unit ∈ units, ∃ verb ∈ verbs, a = .service unit verb := by
  simp [onUnits, eq_comm]

theorem mem_dropIns {a : Action} :
    a ∈ m.dropIns restart units ↔
      (∃ unit ∈ units, a = .writeFile (m.dropInPath unit) restart.dropIn) ∨ a = .managerReload := by
  simp [FeatureManager.dropIns, eq_comm]

/-- Of units with different names each gets the verbs once. -/
theorem verbsOn_onUnits_of_nodup {unit : String} (hnodup : units.Nodup) :
    verbsOn unit (onUnits verbs units) = if unit ∈ units then verbs else [] := by
  induction units with
  | nil => rfl
  | cons first units ih =>
    obtain ⟨hfirst, hnodup⟩ := List.nodup_cons.mp hnodup
    rw [verbsOn_onUnits_cons, ih hnodup]
    by_cases he : first = unit
    · subst he
      rw [if_pos rfl, if_neg hfirst, if_pos List.mem_cons_self, List.append_nil]
    · simp [he, Ne.symm he]

theorem onUnit?_onUnits : (onUnits verbs units).filterMap Action.onUnit? =
    units.flatMap fun unit => verbs.map fun verb => (unit, verb) := by
  unfold onUnits
  rw [List.filterMap_flatMap]
  congr 1
  funext unit
  rw [List.filterMap_map]
  exact congrFun List.filterMap_eq_map verbs

theorem onUnit?_dropIns : (m.dropIns restart units).filterMap Action.onUnit? = [] := by
  refine List.filterMap_eq_nil_iff.mpr fun a ha => ?_
  obtain ⟨unit, -, rfl⟩ | rfl := mem_dropIns.mp ha <;> rfl

theorem contentsAt_onUnits (path : String) : contentsAt path (onUnits verbs units) = [] := by
  refine List.eq_nil_iff_forall_not_mem.mpr fun content hmem => ?_
  obtain ⟨_, -, _, -, he⟩ := mem_onUnits.mp (mem_contentsAt.mp hmem)
  cases he

/-- **Units with different names, all of them absolute or none, have their files written once.** -/
theorem contentsAt_dropIns {unit : String} (hnodup : units.Nodup)
    (hsame : ∀ other ∈ units, Path.isAbsolute other = Path.isAbsolute unit) :
    contentsAt (m.dropInPath unit) (m.dropIns restart units) =
      if unit ∈ units then [restart.dropIn] else [] := by
  induction units with
  | nil => rfl
  | cons first units ih =>
    obtain ⟨hfirst, hnodup⟩ := List.nodup_cons.mp hnodup
    have hcons : contentsAt (m.dropInPath unit) (m.dropIns restart (first :: units)) =
        (if m.dropInPath first = m.dropInPath unit then [restart.dropIn] else []) ++
          contentsAt (m.dropInPath unit) (m.dropIns restart units) := by
      show contentsAt _ ([.writeFile (m.dropInPath first) restart.dropIn] ++ _) = _
      rw [contentsAt_append]
      congr 1
      unfold contentsAt
      split_ifs with h <;> simp [h]
    rw [hcons, ih hnodup fun other hother => hsame other (List.mem_cons_of_mem _ hother)]
    by_cases he : first = unit
    · subst he
      rw [if_pos rfl, if_neg hfirst, if_pos List.mem_cons_self, List.append_nil]
    · have hpath : m.dropInPath first ≠ m.dropInPath unit := fun hpath =>
        he (dropInPath_inj m (hsame first List.mem_cons_self) hpath)
      simp [hpath, Ne.symm he]

/-- What is done to a unit may follow everything. -/
theorem mayPrecede_of_mem_onUnits {earlier later : Action} (h : later ∈ onUnits verbs units) :
    earlier.MayPrecede later := by
  obtain ⟨_, -, _, -, rfl⟩ := mem_onUnits.mp h
  exact ⟨nofun, nofun⟩

theorem mayPrecede_onUnits : (onUnits verbs units).Pairwise Action.MayPrecede :=
  List.pairwise_of_forall_mem_list fun _ _ _ hlater => mayPrecede_of_mem_onUnits hlater

theorem mayPrecede_dropIns : (m.dropIns restart units).Pairwise Action.MayPrecede := by
  refine List.pairwise_append.mpr ⟨?_, List.pairwise_singleton _ _, ?_⟩
  · exact List.pairwise_map.mpr (List.pairwise_of_forall_mem_list fun _ _ _ _ => ⟨nofun, nofun⟩)
  · intro earlier hearlier later _
    obtain ⟨unit, -, rfl⟩ := List.mem_map.mp hearlier
    exact ⟨fun _ => rfl, nofun⟩

theorem count_reload_onUnits : (onUnits verbs units).count .managerReload = 0 := by
  refine List.count_eq_zero.mpr fun hmem => ?_
  obtain ⟨_, -, _, -, he⟩ := mem_onUnits.mp hmem
  cases he

theorem count_reload_dropIns : (m.dropIns restart units).count .managerReload = 1 := by
  have hwrites : (units.map fun unit =>
      Action.writeFile (m.dropInPath unit) restart.dropIn).count .managerReload = 0 :=
    List.count_eq_zero.mpr (by simp)
  unfold FeatureManager.dropIns
  rw [List.count_append, hwrites]
  rfl

end Parts

/-! ## 4. Plans -/

section Plans

variable {m : FeatureManager} {old : Row} {f : Feature}

theorem planFeature_of_keptBy (h : f.KeptBy old) :
    m.planFeature f old = onUnits f.verbs (f.units m.chips) := by
  show (if FeatureManager.leftBehind old f.restart then [] else _) ++ _ = _
  rw [if_pos ((leftBehind_iff_keptBy f old).mpr h)]
  rfl

theorem planFeature_of_not_keptBy (h : ¬ f.KeptBy old) :
    m.planFeature f old =
      m.dropIns f.restart (f.units m.chips) ++ onUnits f.verbs (f.units m.chips) := by
  show (if FeatureManager.leftBehind old f.restart then [] else _) ++ _ = _
  rw [if_neg fun hleft => h ((leftBehind_iff_keptBy f old).mp hleft)]
  rfl

/-- The units of a feature are absolute if its name is. -/
theorem isAbsolute_of_mem {unit other : String} (hunit : unit ∈ f.units m.chips)
    (hother : other ∈ f.units m.chips) : Path.isAbsolute other = Path.isAbsolute unit :=
  (isAbsolute_of_mem_units hother).trans (isAbsolute_of_mem_units hunit).symm

theorem orderly_of_keptBy (h : f.KeptBy old) : m.Orderly old f (m.planFeature f old) := by
  have hnodup : (f.units m.chips).Nodup := f.scope.nodup_units f.name m.chips
  rw [planFeature_of_keptBy h]
  exact {
    nodup := hnodup
    kept := fun _ => rfl
    renewed := fun hnot => absurd h hnot
    written_once := fun hnot => absurd h hnot
    reloads := ⟨fun _ => count_reload_onUnits, fun hnot => absurd h hnot⟩
    reload_between := mayPrecede_onUnits
    verbs := fun unit => verbsOn_onUnits_of_nodup hnodup
    touched := fun a ha => by
      obtain ⟨unit, hunit, hverb⟩ := mem_onUnits.mp ha
      exact .inr ⟨unit, hunit, .inr hverb⟩
    on_units := onUnit?_onUnits }

theorem orderly_of_not_keptBy (h : ¬ f.KeptBy old) : m.Orderly old f (m.planFeature f old) := by
  have hnodup : (f.units m.chips).Nodup := f.scope.nodup_units f.name m.chips
  rw [planFeature_of_not_keptBy h]
  exact {
    nodup := hnodup
    kept := fun hkept => absurd hkept h
    renewed := fun _ => by
      unfold FeatureManager.dropIns
      rw [List.append_assoc]
      rfl
    written_once := fun _ unit hunit => by
      rw [contentsAt_append, contentsAt_onUnits, List.append_nil,
        contentsAt_dropIns hnodup fun other => isAbsolute_of_mem hunit, if_pos hunit]
    reloads := by
      refine ⟨fun hkept => absurd hkept h, fun _ => ?_⟩
      rw [List.count_append, count_reload_dropIns, count_reload_onUnits]
    reload_between := List.pairwise_append.mpr ⟨mayPrecede_dropIns, mayPrecede_onUnits,
      fun _ _ _ hlater => mayPrecede_of_mem_onUnits hlater⟩
    verbs := fun unit => by
      rw [verbsOn_append, verbsOn_dropIns, List.nil_append, verbsOn_onUnits_of_nodup hnodup]
    touched := fun a ha => by
      rcases List.mem_append.mp ha with ha | ha
      · obtain ⟨unit, hunit, he⟩ | he := mem_dropIns.mp ha
        · exact .inr ⟨unit, hunit, .inl he⟩
        · exact .inl he
      · obtain ⟨unit, hunit, hverb⟩ := mem_onUnits.mp ha
        exact .inr ⟨unit, hunit, .inr hverb⟩
    on_units := by
      rw [List.filterMap_append, onUnit?_dropIns, List.nil_append, onUnit?_onUnits] }

end Plans

/-! ## 5. Every old row -/

/-- **The plans for a row that is not empty are orderly, and there is one exactly if the row describes
    a feature**, whatever is in the old row. -/
theorem plan_in_order (m : FeatureManager) (name : String) (old : Row) {new : Row}
    (hnew : new.isEmpty = false) :
    (∀ fault, m.plan name old new = .error fault ↔ Feature.ofRow name new = .error fault) ∧
    ∀ f, Feature.ofRow name new = .ok f →
      ∃ actions, m.plan name old new = .ok actions ∧ m.Orderly old f actions := by
  unfold FeatureManager.plan
  rw [if_neg (Bool.eq_false_iff.mp hnew)]
  cases hrow : Feature.ofRow name new with
  | error e => exact ⟨fun fault => by simp, fun f hf => nomatch hf⟩
  | ok g =>
    refine ⟨fun fault => by simp, fun f hf => ?_⟩
    obtain rfl : g = f := Except.ok.inj hf
    refine ⟨m.planFeature g old, rfl, ?_⟩
    by_cases hkept : g.KeptBy old
    · exact orderly_of_keptBy hkept
    · exact orderly_of_not_keptBy hkept

/-- A row that the policy refuses: its state is none of the four words. -/
def unknownState : Row := .ofList [("auto_restart", "disabled"), ("state", "on")]

/-- From a refused row to one with all units: each unit of the device with two chips has its file
    written and is brought up once, with one reload in between. -/
theorem plan_in_order_from_unknownState :
    allRestart.isEmpty = false ∧ (∀ f, Feature.ofRow "bgp" unknownState ≠ .ok f) ∧
    ∃ actions, twoChips.manager.plan "bgp" unknownState allRestart = .ok actions ∧
      actions.count .managerReload = 1 ∧
      ∀ unit ∈ ["bgp.service", "bgp@0.service", "bgp@1.service"],
        contentsAt (twoChips.manager.dropInPath unit) actions = [RestartPolicy.always.dropIn] ∧
        verbsOn unit actions = [.unmask, .enable, .start] := by
  have hfull : allRestart.isEmpty = false := by decide +kernel
  have hf : Feature.ofRow "bgp" allRestart = .ok ⟨"bgp", .enabled, .always, ⟨true, true⟩⟩ := by
    decide +kernel
  have hunits : (⟨"bgp", .enabled, .always, ⟨true, true⟩⟩ : Feature).units twoChips.manager.chips =
      ["bgp.service", "bgp@0.service", "bgp@1.service"] := by decide +kernel
  obtain ⟨actions, hplan, h⟩ :=
    (plan_in_order twoChips.manager "bgp" unknownState hfull).2 _ hf
  have hrenewed : ¬ Feature.KeptBy ⟨"bgp", .enabled, .always, ⟨true, true⟩⟩ unknownState :=
    fun hkept => absurd hkept.2 (by decide +kernel)
  have hrefused : Feature.ofRow "bgp" unknownState =
      .error (.refused "invalid feature state 'on'") := by decide +kernel
  refine ⟨hfull, fun f => ?_, actions, hplan, h.reloads.2 hrenewed, fun unit hunit => ?_⟩
  · rw [hrefused]
    exact nofun
  · rw [← hunits] at hunit
    refine ⟨h.written_once hrenewed unit hunit, ?_⟩
    rw [h.verbs unit, if_pos hunit]
    rfl

end Converge
