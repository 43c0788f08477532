import Converge.Proofs.Daemon.Writing
import Converge.Proofs.Feature.DropIns

/-!
# Drop-in files on a device with one chip

On a device with one chip a feature has one unit and one drop-in file. A plan writes it if the applied
row has another restart setting, but an attempt may write it and fail behind that; then the file is
ahead of the applied row.

* `lastWriter`: the last attempt that wrote the file; `Written`: what it wrote, and what that has to do
  with the applied row;
* `LeftOther`: the last attempt that wrote the file has failed, and had another setting;
* **`clean_pass_repairs_iff`**: behind a full pass in which nothing failed, the file of a feature holds
  the restart setting of its row, unless the file was left with another one and the pass went back to
  the setting that was last applied. The policy then finds no change and does not write the file
  (`clean_pass_leaves_drop_in`).
-/

namespace Converge

open Daemon (onKey onKey_append)

/-! ## 1. The file of a feature -/

/-- The drop-in file of the unit of a feature on a device with one chip. -/
def FeatureManager.dropInOf (m : FeatureManager) (name : String) : String :=
  m.dropInPath (FeatureScope.deviceUnit name)

theorem units_of_one_chip {m : FeatureManager} (hchips : m.chips ≤ 1) {name : String}
    {row : Option Row} {f : Feature} (hf : Feature.ofRow? name row = some f) :
    f.units m.chips = [FeatureScope.deviceUnit name] := by
  have hname := (Feature.ofRow_parts (Feature.ofRow?_eq_some_iff.mp hf)).1
  unfold Feature.units FeatureScope.units
  rw [if_pos hchips, hname]

/-- A plan removes no file, and writes none but that of its feature. -/
theorem FeaturePlan.writesOnly {m : FeatureManager} (hchips : m.chips ≤ 1) {name : String}
    {old new : Option Row} {actions : List Action} (h : FeaturePlan m name old new actions) :
    ∀ a ∈ actions, a.WritesOnly (· = m.dropInOf name) := by
  intro a ha
  cases a with
  | service unit verb => trivial
  | rule change spec => trivial
  | managerReload => trivial
  | removeFile path =>
    cases h with
    | gone => simp [FeatureManager.onUnits] at ha
    | described => split at ha <;> simp [FeatureManager.onUnits, FeatureManager.dropIns] at ha
  | writeFile path content =>
    obtain ⟨f, hf, -, hpath, -⟩ := h.writeFile_mem_iff.mp ha
    rw [units_of_one_chip hchips hf] at hpath
    exact List.mem_singleton.mp hpath

/-! ## 2. The last attempt that wrote it -/

/-- The last attempt that wrote a file. -/
def lastWriter (path : String) (past : List Attempt) : Option Attempt :=
  past.reverse.find? fun a => (lastContent path a.effects).isSome

theorem lastWriter_append_singleton (path : String) (past : List Attempt) (a : Attempt) :
    lastWriter path (past ++ [a]) =
      if (lastContent path a.effects).isSome then some a else lastWriter path past := by
  unfold lastWriter
  rw [List.reverse_append, List.reverse_singleton, List.singleton_append, List.find?_cons]
  cases (lastContent path a.effects).isSome <;> rfl

theorem lastWriter_spec {path : String} {past : List Attempt} {a : Attempt}
    (h : lastWriter path past = some a) :
    a ∈ past ∧ ∃ content, lastContent path a.effects = some content := by
  have hwrote : (lastContent path a.effects).isSome = true := List.find?_some (p := fun a : Attempt =>
    (lastContent path a.effects).isSome) h
  exact ⟨List.mem_reverse.mp (List.mem_of_find?_eq_some h), Option.isSome_iff_exists.mp hwrote⟩

/-- What was last written to a file is what its last writer wrote. -/
theorem lastContent_effectsOf (path : String) (past : List Attempt) :
    lastContent path (effectsOf past) =
      (lastWriter path past).bind fun a => lastContent path a.effects := by
  induction past using List.reverseRecOn with
  | nil => rfl
  | append_singleton past a ih =>
    rw [effectsOf_append, effectsOf_singleton, lastContent_append, lastWriter_append_singleton, ih]
    cases hlast : lastContent path a.effects with
    | none => rfl
    | some content => simp [hlast]

/-- What the attempts on a feature have made of its drop-in file. -/
structure Written (m : FeatureManager) (name : String) (row : Option Row) (past : List Attempt) :
    Prop where
  /-- An attempt that wrote the file has given it the setting of its new row. -/
  content : ∀ a ∈ past, ∀ content, lastContent (m.dropInOf name) a.effects = some content →
    ∃ r, settingOf name a.delta.new = some r ∧ content = r.dropIn
  /-- If a row with a setting is applied, the file was written; and if the last writer has succeeded,
      with that setting. -/
  writer : ∀ r, settingOf name row = some r → ∃ a, lastWriter (m.dropInOf name) past = some a ∧
    (a.succeeded = true → settingOf name a.delta.new = some r)

section Attempts

variable {σ : Type} {d : Daemon σ} {m : FeatureManager} {name : String}

/-- What a plan makes of the file: it writes it unless the old row has the setting of the new one. -/
theorem FeaturePlan.lastContent_eq (hchips : m.chips ≤ 1) {old new : Option Row}
    {actions : List Action} (h : FeaturePlan m name old new actions) {f : Feature}
    (hf : Feature.ofRow? name new = some f) :
    lastContent (m.dropInOf name) actions =
      if settingOf name old = some f.restart then none else some f.restart.dropIn := by
  have honly : ∀ content, Action.writeFile (m.dropInOf name) content ∈ actions →
      settingOf name old ≠ some f.restart ∧ content = f.restart.dropIn := fun content hmem => by
    obtain ⟨g, hg, hne, -, he⟩ := h.writeFile_mem_iff.mp hmem
    obtain rfl : f = g := Option.some.inj (hf.symm.trans hg)
    exact ⟨hne, he⟩
  by_cases hsame : settingOf name old = some f.restart
  · rw [if_pos hsame]
    exact lastContent_eq_none_iff.mpr fun content hmem => (honly content hmem).1 hsame
  · have hpath : m.dropInOf name ∈ (f.units m.chips).map m.dropInPath := by
      rw [units_of_one_chip hchips hf]
      exact List.mem_singleton_self _
    rw [if_neg hsame]
    exact lastContent_eq_some (h.writeFile_mem_iff.mpr ⟨f, hf, hsame, hpath, rfl⟩)
      fun other hother => (honly other hother).2

/-- A plan that does not write the file has found the setting of the new row in the old one. -/
theorem FeaturePlan.setting_of_unwritten (hchips : m.chips ≤ 1) {old new : Option Row}
    {actions : List Action} (h : FeaturePlan m name old new actions)
    (hnone : lastContent (m.dropInOf name) actions = none) {r : RestartPolicy}
    (hr : settingOf name new = some r) : settingOf name old = some r := by
  obtain ⟨f, hf, rfl⟩ := Option.map_eq_some_iff.mp hr
  rw [h.lastContent_eq hchips hf] at hnone
  by_contra hne
  rw [if_neg hne] at hnone
  cases hnone

/-- **An attempt keeps it**, whether it succeeds or not. -/
theorem Written.attempt (hr : ServesFeatures d.registry m) (hchips : m.chips ≤ 1)
    {row : Option Row} {past : List Attempt} {a : Attempt} (h : Written m name row past)
    (hid : a.delta.id = featureId name) (hold : a.delta.old = row) (haccepted : Accepted name row)
    (hgenuine : d.Genuine a) : Written m name a.known (past ++ [a]) := by
  have hcases := feature_effects_cases hr hgenuine hid (hold ▸ haccepted)
  -- what the attempt has written is the setting of its new row
  have hcontent : ∀ content, lastContent (m.dropInOf name) a.effects = some content →
      ∃ r, settingOf name a.delta.new = some r ∧ content = r.dropIn := fun content hc => by
    have hmem := mem_of_lastContent hc
    rcases hcases with ⟨-, hnone⟩ | ⟨actions, hplan, hsub, -, -⟩
    · rw [hnone] at hmem
      cases hmem
    · obtain ⟨f, hf, -, -, he⟩ := hplan.writeFile_mem_iff.mp (hsub.subset hmem)
      exact ⟨f.restart, congrArg (Option.map Feature.restart) hf, he⟩
  refine ⟨fun b hb content hc => ?_, fun r hr' => ?_⟩
  · rcases List.mem_append.mp hb with hb | hb
    · exact h.content b hb content hc
    · obtain rfl := List.mem_singleton.mp hb
      exact hcontent content hc
  · rw [lastWriter_append_singleton]
    unfold Attempt.known at hr'
    cases hlast : lastContent (m.dropInOf name) a.effects with
    | some content =>
      refine ⟨a, rfl, fun ok => ?_⟩
      rwa [if_pos ok] at hr'
    | none =>
      rcases hcases with ⟨hfailed, -⟩ | ⟨actions, hplan, -, hiff, -⟩
      · rw [if_neg (by simp [hfailed]), hold] at hr'
        exact h.writer r hr'
      · by_cases ok : a.succeeded = true
        · rw [if_pos ok] at hr'
          rw [hiff.mp ok] at hlast
          exact h.writer r (hold ▸ hplan.setting_of_unwritten hchips hlast hr')
        · rw [if_neg ok, hold] at hr'
          exact h.writer r hr'

theorem Daemon.Course.written (hr : ServesFeatures d.registry m) (hchips : m.chips ≤ 1)
    {row : Option Row} {past : List Attempt} (h : d.Course (featureId name) row past) :
    Written m name row past := by
  induction h with
  | begin => exact ⟨fun _ ha => absurd ha List.not_mem_nil, nofun⟩
  | attempt hcourse hid hold hgenuine ih =>
    exact ih.attempt hr hchips hid hold (hcourse.accepted hr) hgenuine

/-- The last attempt that wrote the drop-in file of a feature has failed, and had another setting. -/
def LeftOther (m : FeatureManager) (name : String) (restart : RestartPolicy)
    (past : List Attempt) : Prop :=
  ∃ a, lastWriter (m.dropInOf name) (onKey (featureId name) past) = some a ∧
    a.succeeded = false ∧ settingOf name a.delta.new ≠ some restart

/-- What was last written to the file of a feature whose applied row has a setting: that setting, unless
    the file was left with another one. -/
theorem Written.exists_lastContent {row : Option Row} {past : List Attempt}
    (h : Written m name row (onKey (featureId name) past)) {restart : RestartPolicy}
    (hset : settingOf name row = some restart) :
    ∃ r, lastContent (m.dropInOf name) (effectsOf (onKey (featureId name) past)) = some r.dropIn ∧
      (r = restart ↔ ¬ LeftOther m name restart past) := by
  obtain ⟨w, hw, hlike⟩ := h.writer restart hset
  obtain ⟨hmem, content, hcontent⟩ := lastWriter_spec hw
  obtain ⟨r, hr, rfl⟩ := h.content w hmem content hcontent
  refine ⟨r, ?_, ?_⟩
  · rw [lastContent_effectsOf, hw, Option.bind_some, hcontent]
  · constructor
    · rintro rfl ⟨b, hb, -, hother⟩
      obtain rfl : w = b := Option.some.inj (hw.symm.trans hb)
      exact hother hr
    · intro hnot
      by_contra hne
      have hother : settingOf name w.delta.new ≠ some restart := fun he =>
        hne (Option.some.inj (hr.symm.trans he))
      have hfailed : w.succeeded = false := Bool.eq_false_iff.mpr fun ok => hother (hlike ok)
      exact hnot ⟨w, hw, hfailed, hother⟩

/-! ## 3. Behind a full pass in which nothing failed -/

/-- **What was last written to the file of a feature behind a full pass in which nothing failed**: the
    setting of its row, unless the file was left with another one and the pass went back to the setting
    that was last applied; then it is that other one. -/
theorem lastContent_clean_pass (hr : ServesFeatures d.registry m) (hchips : m.chips ≤ 1)
    {k : Knowledge} {past : List Attempt} (h : d.Lived k past) {snapshot : Snapshot} {s : σ}
    (hclean : (d.fullPass snapshot k s).value.2.failed = 0) {row : Row}
    (hrow : snapshot.row? (featureId name) = some row) (hfull : row.isEmpty = false) :
    ∃ f r, Feature.ofRow name row = .ok f ∧
      lastContent (m.dropInOf name) (effectsOf (onKey (featureId name)
        (past ++ d.attempts k.applied (passDeltas k.applied snapshot) s))) = some r.dropIn ∧
      (r = f.restart ↔ ¬ (LeftOther m name f.restart past ∧
        settingOf name (k.applied.get? (featureId name)) = some f.restart)) := by
  have hcourse := h.course (featureId name)
  have hwritten := hcourse.written hr hchips
  obtain ⟨a, ha, hone, hdelta⟩ :=
    (d.onKey_pass_cases k snapshot s (featureId name)).resolve_left fun hnone => by
      rw [hrow] at hnone
      exact nomatch hnone.2.1
  rw [hrow] at hdelta
  have ok := Daemon.succeeded_of_clean_pass hclean a ha
  have hgenuine := d.genuine_of_mem (Daemon.nodup_passDeltas k.applied snapshot) ha
  have hid : a.delta.id = featureId name := by rw [hdelta]
  have hold : a.delta.old = k.applied.get? (featureId name) := by rw [hdelta]
  have hnew : a.delta.new = some row := by rw [hdelta]
  have haccepted : Accepted name a.delta.old := hold ▸ hcourse.accepted hr
  obtain ⟨f, hf⟩ : ∃ f, Feature.ofRow? name (some row) = some f := by
    rcases feature_effects_cases hr hgenuine hid haccepted with ⟨hfailed, -⟩ | ⟨-, -, -, -, hnext⟩
    · rw [ok] at hfailed
      cases hfailed
    · rw [hnew] at hnext
      exact hnext.resolve_left (by simp [hfull])
  have hplan := featurePlan_of_succeeded hr hgenuine hid haccepted ok
  have hwrites := hplan.lastContent_eq hchips (hnew ▸ hf)
  rw [hold] at hwrites
  rw [onKey_append, hone, effectsOf_append, effectsOf_singleton, lastContent_append, hwrites]
  by_cases hsame : settingOf name (k.applied.get? (featureId name)) = some f.restart
  · -- nothing is written, so the file is as its last writer has left it
    obtain ⟨r, hlast, hiff⟩ := hwritten.exists_lastContent hsame
    refine ⟨f, r, Feature.ofRow?_eq_some_iff.mp hf, ?_, ?_⟩
    · rw [if_pos hsame, Option.none_or, hlast]
    · rw [hiff, and_iff_left hsame]
  · refine ⟨f, f.restart, Feature.ofRow?_eq_some_iff.mp hf, ?_, ?_⟩
    · rw [if_neg hsame, Option.some_or]
    · exact ⟨fun _ hboth => hsame hboth.2, fun _ => rfl⟩

end Attempts

/-! ## 4. The files -/

theorem RestartPolicy.encode_dropIn_inj {r r' : RestartPolicy}
    (h : Text.encode r.dropIn = Text.encode r'.dropIn) : r = r' := by
  revert h
  cases r <;> cases r' <;> decide +kernel

section Files

open Files (Tree Plain IsFront Apart scratchPath)

variable (m : FeatureManager)

theorem plain_autoRestart : Plain "auto_restart.conf" := by
  constructor <;> decide +kernel

theorem plain_scratch : Plain ".auto_restart.conf.tmp" := by
  constructor <;> decide +kernel

/-- All drop-in files have one name. -/
theorem exists_dropInPath_eq (unit : String) :
    ∃ front, IsFront front ∧ m.dropInPath unit = front ++ "auto_restart.conf" := by
  refine ⟨m.dropInFront (Path.isAbsolute unit) ++ unit ++ ".d" ++ "/", .inr ⟨_, rfl⟩, ?_⟩
  have hends : ".d" ++ "/" ++ "auto_restart.conf" = ".d/auto_restart.conf" := rfl
  rw [dropInPath_eq, ← hends]
  simp only [String.append_assoc]

/-- No scratch file is a drop-in file. -/
theorem apart_scratch (unit other : String) :
    ∀ name, Path.fileName? (m.dropInPath unit) = some name →
      Apart (scratchPath (m.dropInPath unit) name) (m.dropInPath other) := by
  intro name hname
  obtain ⟨front, hfront, hunit⟩ := exists_dropInPath_eq m unit
  obtain ⟨front', hfront', hother⟩ := exists_dropInPath_eq m other
  rw [hunit, Files.fileName?_append hfront plain_autoRestart] at hname
  cases hname
  obtain ⟨above, habove, hscratch⟩ := Files.exists_join_eq (Files.directoryOf (m.dropInPath unit))
    (p := ".auto_restart.conf.tmp") (by decide +kernel)
  have hpath : scratchPath (m.dropInPath unit) "auto_restart.conf" =
      above ++ ".auto_restart.conf.tmp" := hscratch
  rw [hpath, hother]
  exact Files.apart_of_name_ne habove hfront' plain_scratch plain_autoRestart (by decide +kernel)

theorem isFront_dropInFront : IsFront (m.dropInFront false) := by
  unfold FeatureManager.dropInFront
  rw [if_neg Bool.false_ne_true]
  split
  · exact Files.isFront_of_ends ‹_›
  · exact .inr ⟨m.unitDir, rfl⟩

/-- The directory of the drop-in file of a feature. -/
theorem plain_dropInDir {name : String} (hname : '/' ∉ name.toList) : Plain (name ++ ".service.d") := by
  have hlong : ∀ short : String, short.length < 10 → name ++ ".service.d" ≠ short := fun short hs he => by
    have hlength := congrArg String.length he
    rw [String.length_append, show ".service.d".length = 10 from rfl] at hlength
    omega
  exact ⟨by simpa [String.toList_append] using hname, hlong _ (by decide), hlong _ (by decide),
    hlong _ (by decide)⟩

theorem dropInOf_eq {name : String} (hname : '/' ∉ name.toList) :
    m.dropInOf name =
      m.dropInFront false ++ (name ++ ".service.d") ++ "/" ++ "auto_restart.conf" := by
  have hrelative : Path.isAbsolute (FeatureScope.deviceUnit name) = false := by
    unfold FeatureScope.deviceUnit
    rw [isAbsolute_append_of_ne (c := '.') rfl (by decide)]
    refine beq_eq_false_iff_ne.mpr fun hhead => hname ?_
    exact List.mem_of_mem_head? hhead
  have hends : ".service" ++ ".d/auto_restart.conf" = ".service.d" ++ "/" ++ "auto_restart.conf" := rfl
  unfold FeatureManager.dropInOf
  rw [dropInPath_eq, hrelative, FeatureScope.deviceUnit]
  simp only [String.append_assoc] at hends ⊢
  rw [hends]

/-- **Features whose names hold no separator have files that are apart.** -/
theorem apart_dropInOf {name other : String} (hname : '/' ∉ name.toList)
    (hother : '/' ∉ other.toList) (hne : other ≠ name) :
    Apart (m.dropInOf other) (m.dropInOf name) := by
  rw [dropInOf_eq m hname, dropInOf_eq m hother]
  refine Files.apart_of_dir_ne (isFront_dropInFront m) (plain_dropInDir hother)
    (plain_dropInDir hname) plain_autoRestart fun he => hne ?_
  simpa using he

end Files

section Works

open Files (Tree Apart)

variable {σ : Type} {c : FeatureConfig} {host : Host σ} {sink : Option (StatusSink σ)} {d : Daemon σ}
  {disk : σ → Tree} {name : String}

/-- Nothing but the writing of files touches the file at the path: no command, and no publishing. -/
structure Quiet (host : Host σ) (sink : Option (StatusSink σ)) (disk : σ → Tree) (path : String) :
    Prop where
  run : ∀ c s, Daemon.LeavesFile (FileHolds disk path) s (host.run c s).2
  set : ∀ place, sink = some place → ∀ id row s,
    Daemon.LeavesFile (FileHolds disk path) s (place.set id row s).2
  clear : ∀ place, sink = some place → ∀ id s,
    Daemon.LeavesFile (FileHolds disk path) s (place.clear id s).2

theorem Quiet.publishes {path : String} (h : Quiet host sink disk path) (hsink : d.sink = sink) :
    d.PublishesCalmly (FileHolds disk path) := by
  intro delta ok s content hc
  unfold Daemon.publish
  rw [hsink]
  cases hplace : sink with
  | none => exact hc
  | some place =>
    cases delta.new with
    | none =>
      cases ok with
      | true => exact h.clear place hplace delta.id s content hc
      | false => exact hc
    | some row =>
      simp only
      split
      · exact h.set place hplace delta.id _ s content hc
      · exact hc

/-- The other features that were attempted have files of their own. -/
def OwnFile (m : FeatureManager) (name : String) (past : List Attempt) : Prop :=
  ∀ other, other ≠ name → (∃ a ∈ past, a.delta.id = featureId other) →
    Apart (m.dropInOf other) (m.dropInOf name)

/-- The plans for one feature write its file, those for others write others. -/
theorem mindsAll_dropIns (hd : c.daemon host sink = .ok d) (hchips : c.manager.chips ≤ 1)
    {k : Knowledge} {past : List Attempt} (h : d.Lived k past)
    (hown : OwnFile c.manager name past) :
    d.MindsAll (featureId name) (c.manager.dropInOf name) (ForeignTo (c.manager.dropInOf name))
      past := by
  obtain ⟨-, -, hr⟩ := FeatureConfig.daemon_parts hd
  intro a ha actions hplan
  have hid := FeatureConfig.id_of_plan hd hplan
  generalize a.delta.id.key = other at hid
  have haccepted := (h.course (featureId other)).accepted_old hr a (Daemon.mem_onKey.mpr ⟨ha, hid⟩)
  have hfeature := featurePlan_of_plan c.manager haccepted (plan_of_registry hr hid hplan)
  unfold Executor.Minds
  by_cases hname : other = name
  · simp only [hid, hname, if_true]
    exact hname ▸ hfeature.writesOnly hchips
  · have hne : featureId other ≠ featureId name := fun he => hname (congrArg RowKey.key he)
    simp only [hid, if_neg hne]
    have hforeign : ForeignTo (c.manager.dropInOf name) (c.manager.dropInOf other) :=
      ⟨hown other hname ⟨a, ha, hid⟩, apart_scratch c.manager _ _⟩
    intro x hx
    have honly := hfeature.writesOnly hchips x hx
    cases x with
    | writeFile path content =>
      obtain rfl : path = c.manager.dropInOf other := honly
      exact hforeign
    | removeFile path => exact honly
    | service unit verb => trivial
    | rule change spec => trivial
    | managerReload => trivial

/-- **Behind a full pass in which nothing failed, the drop-in file of a feature holds the restart
    setting of its row, unless the file was left with another setting and the pass went back to the one
    that was last applied.** -/
theorem clean_pass_repairs_iff (hd : c.daemon host sink = .ok d) (hchips : c.manager.chips ≤ 1)
    (hdisk : host.OnDisk disk) (hquiet : Quiet host sink disk (c.manager.dropInOf name))
    {k : Knowledge} {past : List Attempt} {s : σ}
    (h : d.Works (Daemon.LeavesFile (FileHolds disk (c.manager.dropInOf name))) k past s)
    {snapshot : Snapshot} (hclean : (d.fullPass snapshot k s).value.2.failed = 0)
    (hown : OwnFile c.manager name
      (past ++ d.attempts k.applied (passDeltas k.applied snapshot) s)) {row : Row}
    (hrow : snapshot.row? (featureId name) = some row) (hfull : row.isEmpty = false) :
    ∃ f, Feature.ofRow name row = .ok f ∧
      ((disk (d.fullPass snapshot k s).host).read (c.manager.dropInOf name) =
          .ok (Text.encode f.restart.dropIn) ↔
        ¬ (LeftOther c.manager name f.restart past ∧
          settingOf name (k.applied.get? (featureId name)) = some f.restart)) := by
  obtain ⟨hhost, hsink, hr⟩ := FeatureConfig.daemon_parts hd
  have htends : d.executor.host.Tends (c.manager.dropInOf name)
      (ForeignTo (c.manager.dropInOf name)) (FileHolds disk (c.manager.dropInOf name)) := by
    rw [hhost]
    exact hdisk.tends (apart_scratch c.manager _ _) hquiet.run
  have hpass := h.pass snapshot
  obtain ⟨s₀, hfollows⟩ := hpass.follows htends (hquiet.publishes hsink)
    (mindsAll_dropIns hd hchips hpass.lived hown)
  obtain ⟨f, r, hf, hlast, hiff⟩ := lastContent_clean_pass hr hchips h.lived hclean hrow hfull
  have hread : (disk (d.fullPass snapshot k s).host).read (c.manager.dropInOf name) =
      .ok (Text.encode r.dropIn) := hfollows.written _ hlast
  refine ⟨f, hf, ?_⟩
  rw [hread, ← hiff]
  constructor
  · exact fun he => RestartPolicy.encode_dropIn_inj (Except.ok.inj he)
  · rintro rfl
    rfl

end Works

/-! ## 5. A file that stays behind -/

section Bench

open Daemon (Works LeavesFile eventDeltas)
open Files (Tree)

/-- A host with a file tree, on which units can be started in one mood only. -/
def balky : Host (Bool × Tree) where
  run c s := (.ok ⟨if c.argv.contains "start" && !s.1 then 1 else 0, "", ""⟩, s)
  writeFile path content s :=
    ((Files.writeAtomic .sound s.2 path content).2, s.1, (Files.writeAtomic .sound s.2 path content).1)
  removeFile path s := ((Files.remove .sound s.2 path).2, s.1, (Files.remove .sound s.2 path).1)

/-- The settings for one chip. -/
def oneChip : FeatureConfig where
  own := { unitDir := "/d" }

/-- The daemon of the features on that host. -/
def oneChipped : Daemon (Bool × Tree) where
  name := FeatureConfig.daemonName
  tables := [FeatureConfig.table]
  registry := ⟨SortedMap.empty.insert FeatureConfig.table oneChip.manager.policy⟩
  executor := ⟨balky, {}, FeatureConfig.daemonName⟩
  sink := none
  settings := LoopConfig.settings {}

theorem oneChipped_made : oneChip.daemon balky none = .ok oneChipped := rfl

theorem onDisk_balky : balky.OnDisk Prod.snd := by
  intro path content s
  have hreplaced := Files.replaced_writeAtomic .sound s.2 path content
  unfold balky
  simp only
  generalize Files.writeAtomic .sound s.2 path content = written at hreplaced ⊢
  exact hreplaced

theorem quiet_balky (path : String) : Quiet balky none Prod.snd path where
  run _ _ _ h := h
  set _ h := nomatch h
  clear _ h := nomatch h

/-- A feature that runs, with a restart setting. -/
def runningWith (restart : String) : Row :=
  .ofList [("auto_restart", restart), ("state", "enabled")]

/-- A table with two features, one of them with a restart setting. -/
def features (restart : String) : Snapshot :=
  ⟨.ofList [(FeatureConfig.table,
    .ofList [("lldp", .ofList [("state", "disabled")]), ("ntp", runningWith restart)])]⟩

/-- A full pass that succeeds. -/
def firstPass : Ran (Bool × Tree) (Knowledge × PassSummary) :=
  oneChipped.fullPass (features "enabled") oneChipped.fresh (true, .empty)

/-- An event that changes the setting. -/
def change : ChangeEvent := .set (featureId "ntp") (runningWith "disabled")

/-- The unit fails to start. -/
def changed : Ran (Bool × Tree) (Knowledge × EventOutcome) :=
  oneChipped.reconcile change firstPass.value.1 (false, firstPass.host.2)

/-- The attempts so far. -/
def triedChange : List Attempt :=
  oneChipped.attempts oneChipped.fresh.applied
      (passDeltas oneChipped.fresh.applied (features "enabled")) (true, .empty) ++
    oneChipped.attempts firstPass.value.1.applied (eventDeltas firstPass.value.1 change)
      (false, firstPass.host.2)

theorem leavesFile_mood (path : String) (s : Bool × Tree) (mood : Bool) :
    LeavesFile (FileHolds Prod.snd path) s (mood, s.2) :=
  fun _ h => h

/-- The unit can be started again. -/
theorem works_triedChange (path : String) :
    oneChipped.Works (LeavesFile (FileHolds Prod.snd path)) changed.value.1 triedChange
      (true, changed.host.2) := by
  have hbegin : oneChipped.Works (LeavesFile (FileHolds Prod.snd path)) oneChipped.fresh []
      (true, .empty) := .begin _
  have hpass := hbegin.pass (features "enabled")
  rw [List.nil_append] at hpass
  exact ((hpass.meanwhile (leavesFile_mood path firstPass.host false)).event change).meanwhile
    (leavesFile_mood path changed.host true)

/-- A full pass behind it. -/
def lastPass (restart : String) : Ran (Bool × Tree) (Knowledge × PassSummary) :=
  oneChipped.fullPass (features restart) changed.value.1 (true, changed.host.2)

/-- The attempts up to its end. -/
def triedAll (restart : String) : List Attempt :=
  triedChange ++ oneChipped.attempts changed.value.1.applied
    (passDeltas changed.value.1.applied (features restart)) (true, changed.host.2)

/-- Nothing fails in a pass that goes on to the changed setting, while the other one is applied. -/
theorem clean_lastPass : (lastPass "disabled").value.2.failed = 0 ∧
    settingOf "ntp" (changed.value.1.applied.get? (featureId "ntp")) = some .always ∧
    (triedAll "disabled").map (·.delta.id) =
      [featureId "lldp", featureId "ntp", featureId "ntp", featureId "lldp", featureId "ntp"] := by
  decide +kernel

theorem ownFile_triedAll : OwnFile oneChip.manager "ntp" (triedAll "disabled") := by
  rintro other hne ⟨a, ha, hid⟩
  have hmem : featureId other ∈ (triedAll "disabled").map (·.delta.id) :=
    hid ▸ List.mem_map_of_mem ha
  obtain rfl : other = "lldp" := by
    simpa [clean_lastPass.2.2, featureId, hne] using hmem
  exact apart_dropInOf oneChip.manager (by decide +kernel) (by decide +kernel) hne

/-- A full pass that goes on to the changed setting finds it in the file, or writes it. -/
theorem clean_pass_repairs_changed :
    oneChip.daemon balky none = .ok oneChipped ∧ oneChip.manager.chips ≤ 1 ∧
    balky.OnDisk Prod.snd ∧ Quiet balky none Prod.snd (oneChip.manager.dropInOf "ntp") ∧
    oneChipped.Works (LeavesFile (FileHolds Prod.snd (oneChip.manager.dropInOf "ntp")))
      changed.value.1 triedChange (true, changed.host.2) ∧
    (lastPass "disabled").value.2.failed = 0 ∧
    OwnFile oneChip.manager "ntp" (triedAll "disabled") ∧
    (features "disabled").row? (featureId "ntp") = some (runningWith "disabled") ∧
    (runningWith "disabled").isEmpty = false ∧
    (lastPass "disabled").host.2.read (oneChip.manager.dropInOf "ntp") =
      .ok (Text.encode RestartPolicy.never.dropIn) := by
  have hone : oneChip.manager.chips ≤ 1 := by decide
  have hquiet := quiet_balky (oneChip.manager.dropInOf "ntp")
  have hworks := works_triedChange (oneChip.manager.dropInOf "ntp")
  obtain ⟨hclean, hset, -⟩ := clean_lastPass
  have hrow : (features "disabled").row? (featureId "ntp") = some (runningWith "disabled") := by
    decide +kernel
  have hfull : (runningWith "disabled").isEmpty = false := by decide +kernel
  obtain ⟨f, hf, hiff⟩ := clean_pass_repairs_iff oneChipped_made hone onDisk_balky hquiet hworks
    hclean ownFile_triedAll hrow hfull
  obtain rfl : f = ⟨"ntp", .enabled, .never, ⟨true, false⟩⟩ :=
    Except.ok.inj (hf.symm.trans (by decide +kernel))
  refine ⟨oneChipped_made, hone, onDisk_balky, hquiet, hworks, hclean, ownFile_triedAll, hrow,
    hfull, hiff.mpr fun hback => ?_⟩
  cases hset.symm.trans hback.2

/-- **A full pass in which nothing failed leaves a file that says something else than the row**: the
    row went back to the setting that was last applied, and the failed change had written another. -/
theorem clean_pass_leaves_drop_in :
    oneChipped.Works (LeavesFile (FileHolds Prod.snd (oneChip.manager.dropInOf "ntp")))
      (lastPass "enabled").value.1 (triedAll "enabled") (lastPass "enabled").host ∧
    (features "enabled").row? (featureId "ntp") = some (runningWith "enabled") ∧
    RestartPolicy.ofRow (runningWith "enabled") = .ok .always ∧
    (lastPass "enabled").value.2.failed = 0 ∧
    (lastPass "enabled").host.2.read (oneChip.manager.dropInOf "ntp") =
      .ok (Text.encode RestartPolicy.never.dropIn) := by
  refine ⟨(works_triedChange _).pass (features "enabled"), by decide +kernel, by decide +kernel, ?_⟩
  decide +kernel

end Bench

end Converge
