import Converge.Proofs.Daemon.Course
import Converge.Proofs.Feature.Status

/-!
# Plans of features

What the plan for a change of a row does to each unit of its feature and to the drop-in files.

* `Feature.ofRow?`: the feature that a row describes; a row without any field describes none, like no
  row at all;
* `FeaturePlan`: the two kinds of plan, that of a feature which is gone and that of a feature which is
  described; **`featurePlan_of_plan`**: there is no other;
* `FeaturePlan.verbs_cases`: what a plan does to one unit; `FeaturePlan.writeFile_mem_iff`: what it
  writes to the drop-in files;
* **`Course.of_succeeded`**: what every plan keeps holds behind attempts that all succeeded.
-/

namespace Converge

open FeatureManager (bringUp takeDown onUnits)

/-! ## 1. What a row asks for -/

/-- The feature that a row describes. -/
def Feature.ofRow? (name : String) (row : Option Row) : Option Feature :=
  row.bind fun row => (Feature.ofRow name row).toOption

/-- The row is one that the policy accepts: it describes a feature, or is as good as no row. -/
def Accepted (name : String) (row : Option Row) : Prop :=
  (row.getD .empty).isEmpty = true ∨ ∃ f, Feature.ofRow? name row = some f

/-- The units that a row asks for. -/
def FeatureManager.unitsOf (m : FeatureManager) (name : String) (row : Option Row) : List String :=
  (Feature.ofRow? name row).elim [] fun f => f.units m.chips

/-- The restart setting that a row asks for. -/
def settingOf (name : String) (row : Option Row) : Option RestartPolicy :=
  (Feature.ofRow? name row).map (·.restart)

/-- The row asks for its feature to run. -/
def runs (name : String) (row : Option Row) : Bool :=
  (Feature.ofRow? name row).elim false fun f => f.state.isEnabled

theorem Feature.ofRow?_eq_some_iff {name : String} {row : Option Row} {f : Feature} :
    Feature.ofRow? name row = some f ↔ Feature.ofRow name (row.getD .empty) = .ok f := by
  cases row with
  | none => exact ⟨nofun, nofun⟩
  | some row =>
    show (Feature.ofRow name row).toOption = some f ↔ Feature.ofRow name row = .ok f
    cases Feature.ofRow name row with
    | error e => exact ⟨nofun, nofun⟩
    | ok g => simp [Except.toOption]

/-- What a feature takes from its row. -/
theorem Feature.ofRow_parts {name : String} {row : Row} {f : Feature}
    (h : Feature.ofRow name row = .ok f) :
    f.name = name ∧ RestartPolicy.ofRow row = .ok f.restart ∧ f.scope = .ofRow row ∧
      row.isEmpty = false := by
  unfold ofRow at h
  split at h
  · cases h
  · rename_i word hword
    split at h
    · cases h
    · split at h
      · cases h
      · rename_i restart hrestart
        cases h
        refine ⟨rfl, hrestart, rfl, Bool.eq_false_iff.mpr fun hempty => ?_⟩
        rw [(SortedMap.isEmpty_iff row).mp hempty] at hword
        cases hword

theorem Feature.ofRow?_of_isEmpty {name : String} {row : Option Row}
    (h : (row.getD .empty).isEmpty = true) : Feature.ofRow? name row = none := by
  refine Option.eq_none_iff_forall_not_mem.mpr fun f hf => ?_
  have hfull := (ofRow_parts (ofRow?_eq_some_iff.mp hf)).2.2.2
  rw [h] at hfull
  cases hfull

/-! ## 2. The two kinds of plan -/

/-- The plan for a change of a row from `old` to `new`. -/
inductive FeaturePlan (m : FeatureManager) (name : String) (old new : Option Row) :
    List Action → Prop where
  /-- The feature is gone: the units that the old row asks for are taken down. -/
  | gone (hnew : Feature.ofRow? name new = none) :
    FeaturePlan m name old new (onUnits takeDown (m.unitsOf name old))
  /-- The new row describes a feature. Its drop-in files are written unless the old row has the same
      restart setting. -/
  | described {f : Feature} (hnew : Feature.ofRow? name new = some f) :
    FeaturePlan m name old new
      ((if settingOf name old = some f.restart then [] else m.dropIns f.restart (f.units m.chips)) ++
        onUnits (if f.state.isEnabled then bringUp else takeDown) (f.units m.chips))

/-- Of an accepted row that is not empty, the policy sees the scope of the feature. -/
theorem planRemoved_eq (m : FeatureManager) {name : String} {old : Option Row}
    (h : Accepted name old) :
    m.planRemoved name (old.getD .empty) = onUnits takeDown (m.unitsOf name old) := by
  unfold FeatureManager.planRemoved FeatureManager.unitsOf
  rcases h with hempty | ⟨f, hf⟩
  · rw [if_pos hempty, Feature.ofRow?_of_isEmpty hempty]
    rfl
  · obtain ⟨hname, -, hscope, hfull⟩ := Feature.ofRow_parts (Feature.ofRow?_eq_some_iff.mp hf)
    rw [if_neg (by simp [hfull]), hf, Option.elim_some, Feature.units, hname, hscope]

theorem leftBehind_iff {name : String} {old : Option Row} (h : Accepted name old)
    (restart : RestartPolicy) :
    FeatureManager.leftBehind (old.getD .empty) restart = true ↔
      settingOf name old = some restart := by
  unfold FeatureManager.leftBehind settingOf
  rcases h with hempty | ⟨f, hf⟩
  · rw [Feature.ofRow?_of_isEmpty hempty, hempty]
    exact ⟨nofun, nofun⟩
  · obtain ⟨-, hrestart, -, hfull⟩ := Feature.ofRow_parts (Feature.ofRow?_eq_some_iff.mp hf)
    rw [hf, hfull, hrestart]
    simp

/-- **A plan is one of the two kinds**, whatever accepted row it starts from. -/
theorem featurePlan_of_plan (m : FeatureManager) {name : String} {old new : Option Row}
    (hold : Accepted name old) {actions : List Action}
    (h : m.plan name (old.getD .empty) (new.getD .empty) = .ok actions) :
    FeaturePlan m name old new actions := by
  unfold FeatureManager.plan at h
  by_cases hempty : (new.getD .empty).isEmpty = true
  · rw [if_pos hempty, planRemoved_eq m hold] at h
    cases h
    exact .gone (Feature.ofRow?_of_isEmpty hempty)
  · rw [if_neg hempty] at h
    cases hf : Feature.ofRow name (new.getD .empty) with
    | error e =>
      rw [hf] at h
      cases h
    | ok f =>
      rw [hf] at h
      cases h
      unfold FeatureManager.planFeature
      simp only [leftBehind_iff hold]
      exact .described (Feature.ofRow?_eq_some_iff.mpr hf)

/-! ## 3. What a plan does to a unit -/

section Units

variable {unit : String} {verbs : List UnitVerb} {units : List String}

theorem verbsOn_onUnits_cons (first : String) :
    verbsOn unit (onUnits verbs (first :: units)) =
      (if first = unit then verbs else []) ++ verbsOn unit (onUnits verbs units) := by
  show verbsOn unit (verbs.map (Action.service first) ++ onUnits verbs units) = _
  rw [verbsOn_append]
  congr 1
  unfold verbsOn
  rw [List.filterMap_map]
  by_cases h : first = unit
  · simp [h]
  · simp [h]

/-- A unit that is not among the units is left alone. -/
theorem verbsOn_onUnits_of_not_mem :
    ∀ {units : List String}, unit ∉ units → verbsOn unit (onUnits verbs units) = []
  | [], _ => rfl
  | first :: units, h => by
    rw [List.mem_cons, not_or] at h
    rw [verbsOn_onUnits_cons, if_neg (Ne.symm h.1), verbsOn_onUnits_of_not_mem h.2]
    rfl

/-- The verbs come last on each of the units. -/
theorem suffix_verbsOn_onUnits :
    ∀ {units : List String}, unit ∈ units → verbs <:+ verbsOn unit (onUnits verbs units)
  | first :: units, h => by
    rw [verbsOn_onUnits_cons]
    by_cases hmem : unit ∈ units
    · exact (suffix_verbsOn_onUnits hmem).trans (List.suffix_append _ _)
    · obtain rfl : unit = first := (List.mem_cons.mp h).resolve_right hmem
      rw [if_pos rfl, verbsOn_onUnits_of_not_mem hmem, List.append_nil]

/-- There are no other verbs. -/
theorem verbsOn_onUnits_subset :
    ∀ {units : List String}, verbsOn unit (onUnits verbs units) ⊆ verbs
  | [] => nofun
  | first :: units => by
    rw [verbsOn_onUnits_cons]
    refine List.append_subset.mpr ⟨?_, verbsOn_onUnits_subset⟩
    split
    · exact List.Subset.refl _
    · exact List.nil_subset _

@[simp] theorem verbsOn_dropIns (m : FeatureManager) (restart : RestartPolicy) :
    verbsOn unit (m.dropIns restart units) = [] := by
  simp [verbsOn, FeatureManager.dropIns, List.filterMap_map]

/-- **What a plan does to one unit**: it brings it up, takes it down or leaves it alone. -/
theorem FeaturePlan.verbs_cases {m : FeatureManager} {name : String} {old new : Option Row}
    {actions : List Action} (h : FeaturePlan m name old new actions) (unit : String) :
    (unit ∈ m.unitsOf name new ∧ runs name new = true ∧ bringUp <:+ verbsOn unit actions) ∨
    ((unit ∈ m.unitsOf name new ∧ runs name new = false ∨
        Feature.ofRow? name new = none ∧ unit ∈ m.unitsOf name old) ∧
      takeDown <:+ verbsOn unit actions ∧ verbsOn unit actions ⊆ takeDown) ∨
    (unit ∉ m.unitsOf name new ∧ (Feature.ofRow? name new = none → unit ∉ m.unitsOf name old) ∧
      verbsOn unit actions = []) := by
  cases h with
  | gone hnew =>
    by_cases hmem : unit ∈ m.unitsOf name old
    · exact .inr (.inl ⟨.inr ⟨hnew, hmem⟩, suffix_verbsOn_onUnits hmem, verbsOn_onUnits_subset⟩)
    · refine .inr (.inr ⟨?_, fun _ => hmem, verbsOn_onUnits_of_not_mem hmem⟩)
      unfold FeatureManager.unitsOf
      rw [hnew]
      exact List.not_mem_nil
  | @described f hnew =>
    have hunits : m.unitsOf name new = f.units m.chips := by
      unfold FeatureManager.unitsOf
      rw [hnew, Option.elim_some]
    have hruns : runs name new = f.state.isEnabled := by
      unfold runs
      rw [hnew, Option.elim_some]
    -- the drop-in files are none of the unit's business
    rw [verbsOn_append, apply_ite (verbsOn unit), verbsOn_nil, verbsOn_dropIns, ite_self,
      List.nil_append, hunits, hruns, hnew]
    by_cases hmem : unit ∈ f.units m.chips
    · cases f.state.isEnabled with
      | true => exact .inl ⟨hmem, rfl, suffix_verbsOn_onUnits hmem⟩
      | false =>
        exact .inr (.inl ⟨.inl ⟨hmem, rfl⟩, suffix_verbsOn_onUnits hmem, verbsOn_onUnits_subset⟩)
    · exact .inr (.inr ⟨hmem, nofun, verbsOn_onUnits_of_not_mem hmem⟩)

end Units

/-! ## 4. What a plan does to a drop-in file -/

/-- **What a plan writes**: to the drop-in file of each unit of the new row its restart setting, if the
    old row does not have it. -/
theorem FeaturePlan.writeFile_mem_iff {m : FeatureManager} {name : String} {old new : Option Row}
    {actions : List Action} (h : FeaturePlan m name old new actions) {path content : String} :
    Action.writeFile path content ∈ actions ↔
      ∃ f, Feature.ofRow? name new = some f ∧ settingOf name old ≠ some f.restart ∧
        path ∈ (f.units m.chips).map m.dropInPath ∧ content = f.restart.dropIn := by
  have hunits : ∀ verbs units, Action.writeFile path content ∉ onUnits verbs units := by
    simp [onUnits]
  cases h with
  | gone hnew =>
    rw [hnew]
    exact ⟨fun hmem => absurd hmem (hunits _ _), nofun⟩
  | @described f hnew =>
    rw [hnew, List.mem_append, or_iff_left (hunits _ _)]
    by_cases hsame : settingOf name old = some f.restart
    · simp [hsame]
    · simp [hsame, FeatureManager.dropIns, exists_and_right, ← and_assoc, eq_comm]

/-! ## 5. What attempts do -/

section Attempts

variable {σ : Type} {d : Daemon σ} {m : FeatureManager} {name : String} {a : Attempt}

/-- **What an attempt on a row of a feature has done**: nothing if the row was refused, and else
    actions of a plan, all of them exactly if it succeeded. -/
theorem feature_effects_cases (hr : ServesFeatures d.registry m) (h : d.Genuine a)
    (hid : a.delta.id = featureId name) (hold : Accepted name a.delta.old) :
    (a.succeeded = false ∧ a.effects = []) ∨
    ∃ actions, FeaturePlan m name a.delta.old a.delta.new actions ∧ a.effects.Sublist actions ∧
      (a.succeeded = true ↔ a.effects = actions) ∧ Accepted name a.delta.new := by
  cases hplan : d.registry.plan a.delta with
  | error e =>
    refine .inl ⟨?_, h.effects_of_refused hplan⟩
    rcases h with ⟨-, -, hnone⟩ | ⟨actions, -, hok, -⟩
    · unfold Attempt.succeeded
      rw [hnone]
      rfl
    · rw [hplan] at hok
      cases hok
  | ok actions =>
    refine .inr ⟨actions, featurePlan_of_plan m hold (plan_of_registry hr hid hplan),
      h.effects_sublist hplan, h.succeeded_iff_effects hplan, ?_⟩
    by_cases hempty : (a.delta.new.getD .empty).isEmpty = true
    · exact .inl hempty
    · cases hnew : a.delta.new with
      | none =>
        rw [hnew] at hempty
        exact absurd rfl hempty
      | some row =>
        rw [hnew] at hempty
        obtain ⟨f, hf⟩ := exists_feature hr hid hplan hnew hempty
        exact .inr ⟨f, Feature.ofRow?_eq_some_iff.mpr hf⟩

/-- The applied row of a feature is one that its policy accepts. -/
theorem Daemon.Course.accepted (hr : ServesFeatures d.registry m) {row : Option Row}
    {past : List Attempt} (h : d.Course (featureId name) row past) : Accepted name row := by
  induction h with
  | begin => exact .inl rfl
  | @attempt row past _ a hid hold hgenuine ih =>
    rw [← hold] at ih
    unfold Attempt.known
    rcases feature_effects_cases hr hgenuine hid ih with ⟨hfailed, -⟩ | ⟨-, -, -, -, hnew⟩
    · rwa [if_neg (by simp [hfailed])]
    · split
      · exact hnew
      · exact ih

/-- So is every row that an attempt on the feature has started from. -/
theorem Daemon.Course.accepted_old (hr : ServesFeatures d.registry m) {row : Option Row}
    {past : List Attempt} (h : d.Course (featureId name) row past) :
    ∀ a ∈ past, Accepted name a.delta.old := by
  induction h with
  | begin => exact fun a ha => absurd ha List.not_mem_nil
  | @attempt row past hcourse b _ hold _ ih =>
    intro a ha
    rcases List.mem_append.mp ha with ha | ha
    · exact ih a ha
    · rw [List.mem_singleton.mp ha, hold]
      exact hcourse.accepted hr

/-- An attempt that succeeded has done a whole plan. -/
theorem featurePlan_of_succeeded (hr : ServesFeatures d.registry m) (h : d.Genuine a)
    (hid : a.delta.id = featureId name) (hold : Accepted name a.delta.old)
    (ok : a.succeeded = true) : FeaturePlan m name a.delta.old a.delta.new a.effects := by
  rcases feature_effects_cases hr h hid hold with ⟨hfailed, -⟩ | ⟨actions, hplan, -, hiff, -⟩
  · rw [hfailed] at ok
    cases ok
  · rwa [hiff.mp ok]

/-- **What every plan keeps holds behind attempts that all succeeded.** -/
theorem Daemon.Course.of_succeeded (hr : ServesFeatures d.registry m)
    {holds : Option Row → List Attempt → Prop} (hbegin : holds none [])
    (hplan : ∀ row past a, holds row past → a.delta.old = row →
      FeaturePlan m name a.delta.old a.delta.new a.effects → holds a.delta.new (past ++ [a]))
    {row : Option Row} {past : List Attempt} (h : d.Course (featureId name) row past)
    (hok : ∀ a ∈ past, a.succeeded = true) : holds row past := by
  induction h with
  | begin => exact hbegin
  | @attempt row past hcourse a hid hold hgenuine ih =>
    have ok := hok a (List.mem_append_right _ (List.mem_singleton_self a))
    have hbefore := ih fun b hb => hok b (List.mem_append_left _ hb)
    unfold Attempt.known
    rw [if_pos ok]
    exact hplan row past a hbefore hold
      (featurePlan_of_succeeded hr hgenuine hid (hold ▸ hcourse.accepted hr) ok)

end Attempts

/-! ## 6. A device with two chips -/

/-- A host on which every action succeeds. -/
def obliging : Host Unit where
  run _ s := (.ok ⟨0, "", ""⟩, s)
  writeFile _ _ s := (.ok (), s)
  removeFile _ s := (.ok (), s)

/-- The settings for two chips. -/
def twoChips : FeatureConfig where
  own := { chips := 2 }

/-- The daemon of the features with them. -/
def twoChipped : Daemon Unit where
  name := FeatureConfig.daemonName
  tables := [FeatureConfig.table]
  registry := ⟨SortedMap.empty.insert FeatureConfig.table twoChips.manager.policy⟩
  executor := ⟨obliging, {}, FeatureConfig.daemonName⟩
  sink := none
  settings := LoopConfig.settings {}

theorem twoChipped_made : twoChips.daemon obliging none = .ok twoChipped := rfl

end Converge
