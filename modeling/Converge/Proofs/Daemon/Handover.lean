import Converge.Proofs.Daemon.Passing
import Converge.Proofs.Feature.Plans

/-!
# What is handed over from one key to another

A unit or a file may pass from a key that is gone to a row of the snapshot while nobody listens. A
full pass then works on it twice, once for the row and once for the removal.

* `Touches`: the plan of a change is about a resource; `lastStroke`: what is done last on it;
* **`lastStroke_of_row_iff`**: in a full pass without a failure, whatever the order of its batch, the
  last stroke on a resource of a row is one of a row exactly if no removal is about the resource;
* the removal comes behind the row, so it undoes what is configured (`removal_undoes_row`).
-/

namespace Converge

open Executor (BatchOrder)

/-- The last stroke on a resource. -/
def lastStroke (r : String) (strokes : List Stroke) : Option Stroke :=
  (strokes.filter fun x => x.report.action.resource = r).getLast?

theorem lastStroke_subject (r : String) (strokes : List Stroke) :
    (lastStroke r strokes).map Stroke.subject =
      (workOn r (strokes.map Stroke.subject)).getLast? := by
  unfold lastStroke workOn
  rw [List.filter_map, List.getLast?_map]
  rfl

namespace Daemon

variable {σ : Type} {d : Daemon σ} {snapshot : Snapshot} {k : Knowledge} {s : σ}
  {order : BatchOrder} {run : PassRun σ} {r : String}

/-- The policy has a plan for the change that is about the resource. -/
def Touches (d : Daemon σ) (r : String) (delta : RowDelta) : Prop :=
  ∃ actions, d.registry.plan delta = .ok actions ∧ ∃ a ∈ actions, a.resource = r

theorem touches_iff {delta : RowDelta} : d.Touches r delta ↔
    ((d.planned? delta).any fun p => p.actions.any fun a => a.resource = r) = true := by
  rw [Option.any_eq_true]
  constructor
  · rintro ⟨actions, hplan, a, ha, hr⟩
    exact ⟨⟨delta, actions⟩, d.planned?_eq_some_iff.mpr ⟨rfl, hplan⟩,
      List.any_eq_true.mpr ⟨a, ha, decide_eq_true hr⟩⟩
  · rintro ⟨p, hp, hany⟩
    obtain ⟨a, ha, hr⟩ := List.any_eq_true.mp hany
    exact ⟨p.actions, (d.planned?_eq_some_iff.mp hp).2, a, ha, of_decide_eq_true hr⟩

instance (d : Daemon σ) (r : String) (delta : RowDelta) : Decidable (d.Touches r delta) :=
  decidable_of_iff _ touches_iff.symm

/-- There is work on a resource exactly if a change is about it. -/
theorem workOn_ne_nil_iff {deltas : List RowDelta} :
    workOn r (d.workFor deltas) ≠ [] ↔ ∃ delta ∈ deltas, d.Touches r delta := by
  rw [← List.length_pos_iff, List.length_pos_iff_exists_mem]
  constructor
  · rintro ⟨x, hx⟩
    obtain ⟨hwork, hr⟩ := List.mem_filter.mp hx
    obtain ⟨delta, hdelta, -, actions, hplan, ha⟩ := mem_workFor.mp hwork
    exact ⟨delta, hdelta, actions, hplan, x.2, ha, of_decide_eq_true hr⟩
  · rintro ⟨delta, hdelta, actions, hplan, a, ha, hr⟩
    exact ⟨(delta.id, a), List.mem_filter.mpr
      ⟨mem_workFor.mpr ⟨delta, hdelta, rfl, actions, hplan, ha⟩, decide_eq_true hr⟩⟩

theorem row?_of_mem_rowDeltas {cache : Cache} {delta : RowDelta}
    (h : delta ∈ rowDeltas cache snapshot) : (snapshot.row? delta.id).isSome = true := by
  obtain ⟨⟨id, row⟩, hrow, rfl⟩ := List.mem_map.mp h
  exact Option.isSome_iff_exists.mpr ⟨row, (Snapshot.mem_rows _).mp hrow⟩

theorem row?_of_mem_goneDeltas {cache : Cache} {delta : RowDelta}
    (h : delta ∈ goneDeltas cache snapshot) : (snapshot.row? delta.id).isSome = false := by
  obtain ⟨⟨id, row⟩, hgone, rfl⟩ := List.mem_map.mp h
  obtain ⟨-, hnone⟩ := List.mem_filter.mp hgone
  rw [Option.isSome_eq_false_iff]
  exact hnone

/-- If the last stroke on a resource is the last of the work that changes ask for, then it is in the
    plan of one of them. -/
theorem exists_lastStroke {deltas : List RowDelta} {strokes : List Stroke}
    (hne : workOn r (d.workFor deltas) ≠ [])
    (hlast : (lastStroke r strokes).map Stroke.subject = (workOn r (d.workFor deltas)).getLast?) :
    ∃ x, lastStroke r strokes = some x ∧ ∃ owner ∈ deltas, owner.id = x.id ∧
      ∃ actions, d.registry.plan owner = .ok actions ∧ x.report.action ∈ actions := by
  rw [List.getLast?_eq_some_getLast hne] at hlast
  obtain ⟨x, hx, hsubject⟩ := Option.map_eq_some_iff.mp hlast
  have hmem := List.getLast_mem hne
  rw [← hsubject] at hmem
  exact ⟨x, hx, mem_workFor.mp (List.mem_filter.mp hmem).1⟩

/-- **In a full pass without a failure the last stroke on a resource of a row is one of a row exactly
    if no removal is about the resource**, whatever was applied before, whatever the policies are and
    in whatever order the batch is run. -/
theorem lastStroke_of_row_iff (h : d.passBy snapshot k s order = some run)
    (hclean : run.done.value.2.failed = 0) {delta : RowDelta}
    (hdelta : delta ∈ rowDeltas k.applied snapshot) (htouch : d.Touches r delta) :
    (∀ x ∈ run.batch.strokes, x.report.outcome = .success) ∧
    ∃ x, lastStroke r run.batch.strokes = some x ∧
      (∃ owner ∈ passDeltas k.applied snapshot, owner.id = x.id ∧
        ∃ actions, d.registry.plan owner = .ok actions ∧ x.report.action ∈ actions) ∧
      ((snapshot.row? x.id).isSome = true ↔
        ∀ gone ∈ goneDeltas k.applied snapshot, ¬ d.Touches r gone) := by
  refine ⟨(clean_passBy h hclean).2, ?_⟩
  have hrows : workOn r (d.workFor (rowDeltas k.applied snapshot)) ≠ [] :=
    workOn_ne_nil_iff.mpr ⟨delta, hdelta, htouch⟩
  have hlast := lastStroke_subject r run.batch.strokes
  rw [workOn_passBy h] at hlast
  -- the last of all the work on the resource is that of a removal, if there is any
  by_cases hgone : ∃ gone ∈ goneDeltas k.applied snapshot, d.Touches r gone
  · have hne := workOn_ne_nil_iff.mpr hgone
    rw [List.getLast?_append_of_ne_nil _ hne] at hlast
    obtain ⟨x, hx, owner, howner, hid, hplan⟩ := exists_lastStroke hne hlast
    refine ⟨x, hx, ⟨owner, List.mem_append_right _ howner, hid, hplan⟩, ?_⟩
    rw [← hid, row?_of_mem_goneDeltas howner]
    obtain ⟨gone, hmem, ht⟩ := hgone
    exact ⟨nofun, fun hall => absurd ht (hall gone hmem)⟩
  · have hnil : workOn r (d.workFor (goneDeltas k.applied snapshot)) = [] :=
      Classical.byContradiction fun hne => hgone (workOn_ne_nil_iff.mp hne)
    rw [hnil, List.append_nil] at hlast
    obtain ⟨x, hx, owner, howner, hid, hplan⟩ := exists_lastStroke hrows hlast
    refine ⟨x, hx, ⟨owner, List.mem_append_left _ howner, hid, hplan⟩, ?_⟩
    rw [← hid, row?_of_mem_rowDeltas howner]
    exact ⟨fun _ gone hmem ht => hgone ⟨gone, hmem, ht⟩, fun _ => rfl⟩

end Daemon

/-! ## Units of one chip -/

section Bench

/-- A feature that runs on both chips. -/
def bothChipsRow : Row := .ofList [("has_per_asic_scope", "True"), ("state", "enabled")]

/-- What the daemon knows when it has appeared. -/
def onBothChips : Knowledge :=
  ⟨⟨.ofList [(FeatureConfig.table, .ofList [("bgp", bothChipsRow)])]⟩,
    .ofList [(⟨FeatureConfig.table, "bgp"⟩, bothChipsRow)]⟩

/-- The rows later: in place of the feature there is one with the name of its first chip. -/
def onFirstChip : Snapshot :=
  ⟨.ofList [(FeatureConfig.table, .ofList [("bgp@0", .ofList [("state", "enabled")])])]⟩

/-- The change of its row. -/
def firstChipDelta : RowDelta :=
  ⟨⟨FeatureConfig.table, "bgp@0"⟩, none, some (.ofList [("state", "enabled")])⟩

/-- The service manager is read anew for the row only, so the row has the last word on it. -/
theorem lastStroke_of_row_reload :
    ∃ run, twoChipped.passBy onFirstChip onBothChips () .inTurn = some run ∧
      run.done.value.2.failed = 0 ∧
      firstChipDelta ∈ Daemon.rowDeltas onBothChips.applied onFirstChip ∧
      twoChipped.Touches "service-manager" firstChipDelta ∧
      ∃ x, lastStroke "service-manager" run.batch.strokes = some x ∧
        (onFirstChip.row? x.id).isSome = true := by
  obtain ⟨run, hrun, hdone⟩ := twoChipped.passBy_inTurn onFirstChip onBothChips ()
  have hclean : run.done.value.2.failed = 0 := by
    rw [hdone]
    decide +kernel
  have hdelta : firstChipDelta ∈ Daemon.rowDeltas onBothChips.applied onFirstChip := by
    decide +kernel
  have htouch : twoChipped.Touches "service-manager" firstChipDelta := by decide +kernel
  have hgone : ∀ gone ∈ Daemon.goneDeltas onBothChips.applied onFirstChip,
      ¬ twoChipped.Touches "service-manager" gone := by
    decide +kernel
  obtain ⟨-, x, hx, -, hiff⟩ := Daemon.lastStroke_of_row_iff hrun hclean hdelta htouch
  exact ⟨run, hrun, hclean, hdelta, htouch, x, hx, hiff.mpr hgone⟩

/-- **The removal undoes the row**: the row of the first chip asks for a unit that runs, and the unit is
    taken down behind it, though every plan was accepted and every action succeeded. -/
theorem removal_undoes_row :
    (twoChipped.lifeOf () [.set ⟨FeatureConfig.table, "bgp"⟩ bothChipsRow]).1 = onBothChips ∧
    (twoChipped.fullPass onFirstChip onBothChips ()).value.2 = ⟨2, 2, 0⟩ ∧
    firstChipDelta ∈ Daemon.rowDeltas onBothChips.applied onFirstChip ∧
    twoChipped.Touches "unit:bgp@0.service" firstChipDelta ∧
    ∃ run, twoChipped.passBy onFirstChip onBothChips () .inTurn = some run ∧
      run.done = twoChipped.fullPass onFirstChip onBothChips () ∧
      ∃ x, lastStroke "unit:bgp@0.service" run.batch.strokes = some x ∧
        x.subject = (⟨FeatureConfig.table, "bgp"⟩, .service "bgp@0.service" .mask) ∧
        onFirstChip.row? x.id = none := by
  refine ⟨by decide +kernel, by decide +kernel, by decide +kernel, by decide +kernel, ?_⟩
  obtain ⟨run, hrun, hdone⟩ := twoChipped.passBy_inTurn onFirstChip onBothChips ()
  have hlast : ((twoChipped.passBy onFirstChip onBothChips () .inTurn).bind fun run =>
      lastStroke "unit:bgp@0.service" run.batch.strokes).map Stroke.subject =
        some (⟨FeatureConfig.table, "bgp"⟩, .service "bgp@0.service" .mask) := by
    decide +kernel
  rw [hrun] at hlast
  obtain ⟨x, hx, hsubject⟩ := Option.map_eq_some_iff.mp hlast
  have hid : x.id = ⟨FeatureConfig.table, "bgp"⟩ := congrArg Prod.fst hsubject
  refine ⟨run, hrun, hdone, x, hx, hsubject, ?_⟩
  rw [hid]
  decide +kernel

end Bench

end Converge
