import Mathlib.Data.List.DropRight
import Converge.Proofs.Feature.Plans

/-!
# Drop-in files

The drop-in files of a feature are written with its first plan and when its restart setting changes, to
the units that are in its scope at that time.

* `dropInPath_eq`: the path of a drop-in file as a text; `dropInPath_inj`: the units of a feature have
  different files;
* `upToSetting`: the attempts up to the last one that set the restart setting; `cameLate`: a unit was
  not in the scope then;
* `Supplied`: what is in the files of a feature, kept by every plan (`Supplied.attempt`);
* **`supplied_unless_late`**: every unit in the scope has the restart setting of the row in its file,
  unless the unit came late. A plan that leaves the setting as it was writes no file for it
  (`scope_change_lacks_drop_in`).
-/

namespace Converge

/-! ## 1. Paths -/

/-- What stands before a unit in the path of its drop-in file. -/
def FeatureManager.dropInFront (m : FeatureManager) (absolute : Bool) : String :=
  if absolute then ""
  else if m.unitDir.isEmpty || m.unitDir.toList.getLast? == some '/' then m.unitDir
  else m.unitDir ++ "/"

theorem isAbsolute_append_of_ne {name rest : String} {c : Char} (hrest : rest.toList.head? = some c)
    (hc : c ≠ '/') : Path.isAbsolute (name ++ rest) = Path.isAbsolute name := by
  unfold Path.isAbsolute
  rw [String.toList_append]
  cases name.toList with
  | nil => simp [hrest, hc]
  | cons first more => rfl

theorem join_of_last {base p : String} {c : Char} (hp : Path.isAbsolute p = false)
    (hlast : base.toList.getLast? = some c) (hc : c ≠ '/') : Path.join base p = base ++ "/" ++ p := by
  have hbase : base.isEmpty = false := by
    refine Bool.eq_false_iff.mpr fun hempty => ?_
    rw [String.isEmpty_iff.mp hempty] at hlast
    cases hlast
  have hslash : (some c == some '/') = false := by simpa using hc
  unfold Path.join
  rw [hp, hbase, hlast, hslash]
  rfl

/-- The path of a drop-in file as a text. -/
theorem dropInPath_eq (m : FeatureManager) (unit : String) :
    m.dropInPath unit =
      m.dropInFront (Path.isAbsolute unit) ++ unit ++ ".d/auto_restart.conf" := by
  have habsolute : Path.isAbsolute (unit ++ ".d") = Path.isAbsolute unit :=
    isAbsolute_append_of_ne (c := '.') rfl (by decide)
  have hdir : Path.join m.unitDir (unit ++ ".d") =
      m.dropInFront (Path.isAbsolute unit) ++ unit ++ ".d" := by
    unfold Path.join FeatureManager.dropInFront
    rw [habsolute]
    split_ifs <;> simp [String.append_assoc]
  have hlast : (m.dropInFront (Path.isAbsolute unit) ++ unit ++ ".d").toList.getLast? = some 'd' := by
    simp [String.toList_append]
  have hends : ".d" ++ "/" ++ "auto_restart.conf" = ".d/auto_restart.conf" := rfl
  unfold FeatureManager.dropInPath
  rw [hdir, join_of_last rfl hlast (by decide), ← hends]
  simp only [String.append_assoc]

/-- Units with the same front have different drop-in files. -/
theorem dropInPath_inj (m : FeatureManager) {unit other : String}
    (h : Path.isAbsolute unit = Path.isAbsolute other)
    (hpath : m.dropInPath unit = m.dropInPath other) : unit = other := by
  rw [dropInPath_eq, dropInPath_eq, h] at hpath
  have hlists := congrArg String.toList hpath
  simp only [String.toList_append] at hlists
  exact String.toList_inj.mp (List.append_cancel_left (List.append_cancel_right hlists))

theorem isAbsolute_of_mem_units {s : FeatureScope} {name unit : String} {chips : Nat}
    (h : unit ∈ s.units name chips) : Path.isAbsolute unit = Path.isAbsolute name := by
  have hdevice : Path.isAbsolute (FeatureScope.deviceUnit name) = Path.isAbsolute name :=
    isAbsolute_append_of_ne (c := '.') rfl (by decide)
  have hchip : ∀ chip, Path.isAbsolute (FeatureScope.chipUnit name chip) = Path.isAbsolute name :=
    fun chip => by
      unfold FeatureScope.chipUnit
      rw [String.append_assoc, String.append_assoc]
      exact isAbsolute_append_of_ne (c := '@') (by simp [String.toList_append]) (by decide)
  unfold FeatureScope.units at h
  split at h
  · rw [List.mem_singleton.mp h, hdevice]
  · rcases List.mem_append.mp h with h | h
    · split at h
      · rw [List.mem_singleton.mp h, hdevice]
      · cases h
    · split at h
      · obtain ⟨chip, -, rfl⟩ := List.mem_map.mp h
        exact hchip chip
      · cases h

theorem FeatureManager.mem_unitsOf {m : FeatureManager} {name unit : String} {row : Option Row} :
    unit ∈ m.unitsOf name row ↔ ∃ f, Feature.ofRow? name row = some f ∧ unit ∈ f.units m.chips := by
  unfold unitsOf
  cases Feature.ofRow? name row with
  | none => simp
  | some f => simp

theorem isAbsolute_of_mem_unitsOf {m : FeatureManager} {name unit : String} {row : Option Row}
    (h : unit ∈ m.unitsOf name row) : Path.isAbsolute unit = Path.isAbsolute name := by
  obtain ⟨f, hf, hmem⟩ := FeatureManager.mem_unitsOf.mp h
  have hname := (Feature.ofRow_parts (Feature.ofRow?_eq_some_iff.mp hf)).1
  rw [← hname]
  exact isAbsolute_of_mem_units hmem

/-! ## 2. The last change of the restart setting -/

section Settings

variable {m : FeatureManager} {name : String}

/-- The new row describes a feature with a restart setting that the old row does not have. -/
def setsRestart (name : String) (delta : RowDelta) : Bool :=
  match Feature.ofRow? name delta.new with
  | some f => settingOf name delta.old ≠ some f.restart
  | none => false

/-- The attempts up to the last one that set the restart setting. -/
def upToSetting (name : String) (past : List Attempt) : List Attempt :=
  past.rdropWhile fun a => !setsRestart name a.delta

/-- The unit was not in the scope when the restart setting was last set. -/
def cameLate (m : FeatureManager) (name unit : String) (past : List Attempt) : Bool :=
  (upToSetting name past).getLast?.any fun a => unit ∉ m.unitsOf name a.delta.new

theorem upToSetting_append_singleton (name : String) (past : List Attempt) (a : Attempt) :
    upToSetting name (past ++ [a]) =
      if setsRestart name a.delta then past ++ [a] else upToSetting name past := by
  unfold upToSetting
  rw [List.rdropWhile_concat]
  cases setsRestart name a.delta <;> rfl

/-- A plan that does not set the restart setting writes no file. -/
theorem FeaturePlan.lastContent_of_kept {delta : RowDelta} {actions : List Action}
    (h : FeaturePlan m name delta.old delta.new actions) (hkept : setsRestart name delta = false)
    (path : String) : lastContent path actions = none := by
  refine lastContent_eq_none_iff.mpr fun content hmem => ?_
  obtain ⟨f, hf, hne, -⟩ := h.writeFile_mem_iff.mp hmem
  unfold setsRestart at hkept
  rw [hf] at hkept
  exact hne (by simpa using hkept)

/-- A plan that sets it writes the drop-in files of the units of the new row, and no others. -/
theorem FeaturePlan.lastContent_of_set {delta : RowDelta} {actions : List Action}
    (h : FeaturePlan m name delta.old delta.new actions) (hset : setsRestart name delta = true)
    {f : Feature} (hf : Feature.ofRow? name delta.new = some f) {unit : String}
    (habsolute : Path.isAbsolute unit = Path.isAbsolute name) :
    lastContent (m.dropInPath unit) actions =
      if unit ∈ m.unitsOf name delta.new then some f.restart.dropIn else none := by
  have hne : settingOf name delta.old ≠ some f.restart := by
    unfold setsRestart at hset
    rw [hf] at hset
    simpa using hset
  split
  · rename_i hin
    obtain ⟨g, hg, hunit⟩ := FeatureManager.mem_unitsOf.mp hin
    obtain rfl : f = g := Option.some.inj (hf.symm.trans hg)
    refine lastContent_eq_some
      (h.writeFile_mem_iff.mpr ⟨f, hf, hne, List.mem_map_of_mem hunit, rfl⟩) fun other hother => ?_
    obtain ⟨g, hg, -, -, rfl⟩ := h.writeFile_mem_iff.mp hother
    rw [Option.some.inj (hf.symm.trans hg)]
  · rename_i hout
    refine lastContent_eq_none_iff.mpr fun content hmem => hout ?_
    obtain ⟨g, hg, -, hpath, -⟩ := h.writeFile_mem_iff.mp hmem
    obtain ⟨v, hv, hsame⟩ := List.mem_map.mp hpath
    have hv : v ∈ m.unitsOf name delta.new := FeatureManager.mem_unitsOf.mpr ⟨g, hg, hv⟩
    rwa [← dropInPath_inj m ((isAbsolute_of_mem_unitsOf hv).trans habsolute.symm) hsame]

/-- What the attempts on a feature have made of its drop-in files. -/
def Supplied (m : FeatureManager) (name : String) (row : Option Row) (past : List Attempt) : Prop :=
  ∀ f, Feature.ofRow? name row = some f → ∃ a, (upToSetting name past).getLast? = some a ∧
    ∀ unit, Path.isAbsolute unit = Path.isAbsolute name →
      lastContent (m.dropInPath unit) (effectsOf past) =
        if unit ∈ m.unitsOf name a.delta.new then some f.restart.dropIn
        else lastContent (m.dropInPath unit) (effectsOf (upToSetting name past).dropLast)

/-- **An attempt that succeeds keeps it.** -/
theorem Supplied.attempt {row : Option Row} {past : List Attempt} {a : Attempt}
    (h : Supplied m name row past) (hold : a.delta.old = row)
    (hplan : FeaturePlan m name a.delta.old a.delta.new a.effects) :
    Supplied m name a.delta.new (past ++ [a]) := by
  intro f hf
  have hsnoc := upToSetting_append_singleton name past a
  cases hset : setsRestart name a.delta with
  | true =>
    rw [hset, if_pos rfl] at hsnoc
    rw [hsnoc, List.getLast?_concat, List.dropLast_concat]
    refine ⟨a, rfl, fun unit habsolute => ?_⟩
    rw [effectsOf_append, effectsOf_singleton, lastContent_append,
      hplan.lastContent_of_set hset hf habsolute]
    split <;> rfl
  | false =>
    rw [hset, if_neg Bool.false_ne_true] at hsnoc
    -- the old row describes a feature with the same setting
    have hsame : settingOf name a.delta.old = some f.restart := by
      unfold setsRestart at hset
      rw [hf] at hset
      simpa using hset
    obtain ⟨g, hg, hrestart⟩ := Option.map_eq_some_iff.mp hsame
    obtain ⟨w, hw, hunits⟩ := h g (hold ▸ hg)
    rw [hsnoc, ← hrestart]
    refine ⟨w, hw, fun unit habsolute => ?_⟩
    rw [effectsOf_append, effectsOf_singleton, lastContent_append,
      hplan.lastContent_of_kept hset, Option.none_or, hunits unit habsolute]

end Settings

/-- **Every unit in the scope of a feature has the restart setting of its row in its drop-in file,
    unless the unit came late**; then the file is as the attempts before the last change of the setting
    have left it. All attempts on the feature are to have succeeded. -/
theorem supplied_unless_late {σ : Type} {c : FeatureConfig} {host : Host σ}
    {sink : Option (StatusSink σ)} {d : Daemon σ} (hd : c.daemon host sink = .ok d) {k : Knowledge}
    {past : List Attempt} (h : d.Lived k past) (name : String)
    (hok : ∀ a ∈ past, a.delta.id = featureId name → a.succeeded = true) {row : Row}
    (hrow : k.snapshot.row? (featureId name) = some row) (hfull : row.isEmpty = false) :
    ∃ f, Feature.ofRow name row = .ok f ∧ ∀ unit ∈ f.units c.manager.chips,
      (cameLate c.manager name unit (Daemon.onKey (featureId name) past) = false →
        lastContent (c.manager.dropInPath unit)
          (effectsOf (Daemon.onKey (featureId name) past)) = some f.restart.dropIn) ∧
      (cameLate c.manager name unit (Daemon.onKey (featureId name) past) = true →
        lastContent (c.manager.dropInPath unit)
            (effectsOf (Daemon.onKey (featureId name) past)) =
          lastContent (c.manager.dropInPath unit)
            (effectsOf (upToSetting name (Daemon.onKey (featureId name) past)).dropLast)) := by
  obtain ⟨-, -, hr⟩ := FeatureConfig.daemon_parts hd
  have hcourse := h.course (featureId name)
  rw [← h.row?_eq hok, hrow] at hcourse
  have hsupplied : Supplied c.manager name (some row) (Daemon.onKey (featureId name) past) :=
    hcourse.of_succeeded hr nofun (fun _ _ _ hs => hs.attempt) fun a ha =>
      hok a (Daemon.mem_onKey.mp ha).1 (Daemon.mem_onKey.mp ha).2
  obtain ⟨f, hf⟩ : ∃ f, Feature.ofRow? name (some row) = some f :=
    (hcourse.accepted hr).resolve_left (by simp [hfull])
  obtain ⟨a, ha, hunits⟩ := hsupplied f hf
  refine ⟨f, Feature.ofRow?_eq_some_iff.mp hf, fun unit hunit => ?_⟩
  have hin : unit ∈ c.manager.unitsOf name (some row) :=
    FeatureManager.mem_unitsOf.mpr ⟨f, hf, hunit⟩
  have hcontent := hunits unit (isAbsolute_of_mem_unitsOf hin)
  unfold cameLate
  rw [ha, Option.any_some]
  refine ⟨fun hthere => ?_, fun hlate => ?_⟩
  · rw [hcontent, if_pos (by simpa using hthere)]
  · rw [hcontent, if_neg (by simpa using hlate)]

/-! ## 3. A scope that grows -/

section Bench

open Daemon (onKey)

/-- A feature whose unit for the device comes back by itself. -/
def deviceRestarts : Row := .ofList [("auto_restart", "enabled"), ("state", "enabled")]

/-- The feature has a unit for each chip as well. -/
def allRestart : Row :=
  .ofList [("auto_restart", "enabled"), ("has_per_asic_scope", "True"), ("state", "enabled")]

/-- The feature has all its units from the beginning. -/
def suppliedLife : Knowledge × List Attempt :=
  twoChipped.lifeOf () [.set (featureId "bgp") allRestart]

/-- The units for the chips come later. -/
def lateLife : Knowledge × List Attempt :=
  twoChipped.lifeOf () [.set (featureId "bgp") deviceRestarts, .set (featureId "bgp") allRestart]

/-- The unit of a chip that was there from the beginning has its drop-in file. -/
theorem supplied_suppliedLife :
    twoChips.daemon obliging none = .ok twoChipped ∧
    twoChipped.Lived suppliedLife.1 suppliedLife.2 ∧
    (∀ a ∈ suppliedLife.2, a.delta.id = featureId "bgp" → a.succeeded = true) ∧
    suppliedLife.1.snapshot.row? (featureId "bgp") = some allRestart ∧ allRestart.isEmpty = false ∧
    lastContent "/etc/systemd/system/bgp@0.service.d/auto_restart.conf"
        (effectsOf (onKey (featureId "bgp") suppliedLife.2)) = some RestartPolicy.always.dropIn := by
  obtain ⟨hall, hrow, hlate⟩ : (suppliedLife.2.all Attempt.succeeded) = true ∧
      suppliedLife.1.snapshot.row? (featureId "bgp") = some allRestart ∧
      cameLate twoChips.manager "bgp" "bgp@0.service" (onKey (featureId "bgp") suppliedLife.2) =
        false := by
    decide +kernel
  have hlived := twoChipped.lived_lifeOf () [.set (featureId "bgp") allRestart]
  have hok : ∀ a ∈ suppliedLife.2, a.delta.id = featureId "bgp" → a.succeeded = true :=
    fun a ha _ => List.all_eq_true.mp hall a ha
  have hfull : allRestart.isEmpty = false := by decide +kernel
  obtain ⟨f, hf, hunits⟩ := supplied_unless_late twoChipped_made hlived "bgp" hok hrow hfull
  obtain rfl : f = ⟨"bgp", .enabled, .always, ⟨true, true⟩⟩ :=
    Except.ok.inj (hf.symm.trans (by decide +kernel))
  have hcontent := (hunits "bgp@0.service" (by decide +kernel)).1 hlate
  exact ⟨twoChipped_made, hlived, hok, hrow, hfull, hcontent⟩

/-- **The units that come with a row which leaves the restart setting as it was have no drop-in
    file**, though every action of every plan succeeded. -/
theorem scope_change_lacks_drop_in :
    twoChipped.Lived lateLife.1 lateLife.2 ∧
    lateLife.2.map (fun a => (a.delta.id, a.succeeded)) =
      [(featureId "bgp", true), (featureId "bgp", true)] ∧
    lateLife.1.snapshot.row? (featureId "bgp") = some allRestart ∧
    "bgp@0.service" ∈ twoChips.manager.unitsOf "bgp" (some allRestart) ∧
    lastContent (twoChips.manager.dropInPath "bgp@0.service") (effectsOf lateLife.2) = none := by
  refine ⟨twoChipped.lived_lifeOf () _, ?_⟩
  decide +kernel

end Bench

end Converge
