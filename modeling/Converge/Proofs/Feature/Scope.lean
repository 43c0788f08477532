import Mathlib.Data.List.DropRight
import Converge.Proofs.Feature.Plans

/-!
# Units that leave the scope of their feature

A unit that is in the scope of the old row and not in that of the new one is taken down if the row is
deleted. A row that goes on to describe the feature says nothing of the unit, so it stays as it is.

* `sinceStart`, `TakenDown`: the unit was stopped, disabled and masked since it was last started;
* `leftRunning`: the unit was running when a change of the row took it out of the scope, and has not
  been in the scope since;
* `Standing`: what the attempts on a feature have made of a unit, kept by every attempt that succeeds;
* **`taken_down_unless_left_running`**: a unit that was started and is out of the scope was taken down
  unless it was left running, and then nothing was done to it since its last start. The deletion of
  the row does not take it down either (`scope_change_leaves_running`).
-/

namespace Converge

open FeatureManager (bringUp takeDown)

/-! ## 1. Since the last start -/

/-- The verbs since the last start; all of them if there is none. -/
def sinceStart (verbs : List UnitVerb) : List UnitVerb := verbs.rtakeWhile (· ≠ .start)

/-- The unit was stopped, disabled and masked since it was last started. -/
def TakenDown (unit : String) (actions : List Action) : Prop :=
  takeDown.Sublist (sinceStart (verbsOn unit actions))

/-- Behind a start everything counts that comes later. -/
theorem sinceStart_append_of_not_mem {first later : List UnitVerb} (h : .start ∉ later) :
    sinceStart (first ++ later) = sinceStart first ++ later := by
  have hall : ∀ x ∈ later.reverse, decide (x ≠ .start) = true := fun x hx => by
    have hne : x ≠ .start := fun he => h (he ▸ List.mem_reverse.mp hx)
    simpa using hne
  unfold sinceStart List.rtakeWhile
  rw [List.reverse_append, List.takeWhile_append_of_pos hall, List.reverse_append,
    List.reverse_reverse]

/-- A start that comes last leaves nothing behind it. -/
theorem sinceStart_of_suffix {verbs : List UnitVerb} (h : bringUp <:+ verbs) :
    sinceStart verbs = [] := by
  obtain ⟨front, rfl⟩ := h
  unfold sinceStart
  rw [List.rtakeWhile_eq_nil_iff]
  simp [bringUp]

theorem TakenDown.append_nil {unit : String} {first later : List Action}
    (h : verbsOn unit later = []) :
    TakenDown unit (first ++ later) ↔ TakenDown unit first := by
  unfold TakenDown
  rw [verbsOn_append, h, List.append_nil]

/-- Taking a unit down takes it down, whatever was done before. -/
theorem takenDown_of_suffix {unit : String} {first later : List Action}
    (hends : takeDown <:+ verbsOn unit later) (honly : verbsOn unit later ⊆ takeDown) :
    TakenDown unit (first ++ later) := by
  have hstart : .start ∉ verbsOn unit later := fun h => by simpa [takeDown] using honly h
  unfold TakenDown
  rw [verbsOn_append, sinceStart_append_of_not_mem hstart]
  exact hends.sublist.trans (List.sublist_append_right _ _)

/-! ## 2. Units that are left running -/

section Running

variable (m : FeatureManager) (name unit : String)

/-- The unit runs for the old row, and the new row goes on to describe the feature. -/
def forgets (delta : RowDelta) : Bool :=
  unit ∈ m.unitsOf name delta.old && runs name delta.old && (Feature.ofRow? name delta.new).isSome

/-- The unit was running when a change of the row took it out of the scope, and has not been in the
    scope since. -/
def leftRunning (past : List Attempt) : Bool :=
  past.foldl (fun left a => unit ∉ m.unitsOf name a.delta.new && (left || forgets m name unit a.delta))
    false

theorem leftRunning_append_singleton (past : List Attempt) (a : Attempt) :
    leftRunning m name unit (past ++ [a]) =
      (decide (unit ∉ m.unitsOf name a.delta.new) &&
        (leftRunning m name unit past || forgets m name unit a.delta)) := by
  unfold leftRunning
  rw [List.foldl_append]
  rfl

/-- The unit runs, as far as the attempts on its feature tell. -/
def running (row : Option Row) (past : List Attempt) : Bool :=
  if unit ∈ m.unitsOf name row then runs name row else leftRunning m name unit past

/-- What the attempts on a feature have made of a unit. -/
structure Standing (row : Option Row) (past : List Attempt) : Prop where
  /-- A unit that is left running is out of the scope. -/
  outside : leftRunning m name unit past = true → unit ∉ m.unitsOf name row
  up : running m name unit row past = true → sinceStart (verbsOn unit (effectsOf past)) = []
  down : running m name unit row past = false →
    Action.service unit .start ∉ effectsOf past ∨ TakenDown unit (effectsOf past)

variable {m name unit}

/-- What a change makes of a unit: it runs for the new row, or it is taken down, or it stays as it
    is. -/
theorem running_append_cases {row : Option Row} {past : List Attempt} {a : Attempt}
    (h : Standing m name unit row past) (hold : a.delta.old = row)
    (hplan : FeaturePlan m name a.delta.old a.delta.new a.effects) :
    (running m name unit a.delta.new (past ++ [a]) = true ∧ bringUp <:+ verbsOn unit a.effects) ∨
    (running m name unit a.delta.new (past ++ [a]) = false ∧
      takeDown <:+ verbsOn unit a.effects ∧ verbsOn unit a.effects ⊆ takeDown) ∨
    (running m name unit a.delta.new (past ++ [a]) = running m name unit row past ∧
      verbsOn unit a.effects = []) := by
  have hsnoc := leftRunning_append_singleton m name unit past a
  -- as long as a unit is in the scope it is not left running
  have hleft : unit ∈ m.unitsOf name row → leftRunning m name unit past = false := fun hmem =>
    Bool.eq_false_iff.mpr fun hl => h.outside hl hmem
  unfold running
  rcases hplan.verbs_cases unit with ⟨hin, hruns, hverbs⟩ | ⟨⟨hin, hruns⟩ | ⟨hnone, hin⟩, hverbs⟩ |
    ⟨hout, hkept, hverbs⟩
  · exact .inl ⟨by rw [if_pos hin, hruns], hverbs⟩
  · exact .inr (.inl ⟨by rw [if_pos hin, hruns], hverbs⟩)
  · -- the row is deleted, and the unit was in its scope
    refine .inr (.inl ⟨?_, hverbs⟩)
    have hout : unit ∉ m.unitsOf name a.delta.new := by
      unfold FeatureManager.unitsOf
      rw [hnone]
      exact List.not_mem_nil
    rw [if_neg hout, hsnoc, hleft (hold ▸ hin), forgets, hnone]
    simp
  · -- the plan says nothing of the unit
    refine .inr (.inr ⟨?_, hverbs⟩)
    rw [if_neg hout, hsnoc, decide_eq_true hout, Bool.true_and, forgets, hold]
    by_cases hin : unit ∈ m.unitsOf name row
    · have hsome : (Feature.ofRow? name a.delta.new).isSome = true :=
        Option.isSome_iff_ne_none.mpr fun hnone => hkept hnone (hold ▸ hin)
      rw [if_pos hin, hleft hin, decide_eq_true hin, hsome]
      simp
    · rw [if_neg hin, decide_eq_false hin]
      simp

theorem Standing.begin : Standing m name unit none [] :=
  ⟨nofun, fun _ => rfl, fun _ => .inl List.not_mem_nil⟩

/-- **An attempt that succeeds keeps it.** -/
theorem Standing.attempt {row : Option Row} {past : List Attempt} {a : Attempt}
    (h : Standing m name unit row past) (hold : a.delta.old = row)
    (hplan : FeaturePlan m name a.delta.old a.delta.new a.effects) :
    Standing m name unit a.delta.new (past ++ [a]) := by
  have hcases := running_append_cases h hold hplan
  refine ⟨fun hleft => ?_, fun hup => ?_, fun hdown => ?_⟩
  · rw [leftRunning_append_singleton, Bool.and_eq_true] at hleft
    exact of_decide_eq_true hleft.1
  all_goals rw [effectsOf_append, effectsOf_singleton]
  · rw [verbsOn_append]
    rcases hcases with ⟨-, hverbs⟩ | ⟨hnot, -⟩ | ⟨hsame, hnone⟩
    · exact sinceStart_of_suffix (hverbs.trans (List.suffix_append _ _))
    · rw [hup] at hnot
      cases hnot
    · rw [hnone, List.append_nil]
      exact h.up (hsame.symm.trans hup)
  · rcases hcases with ⟨hruns, -⟩ | ⟨-, hends, honly⟩ | ⟨hsame, hnone⟩
    · rw [hruns] at hdown
      cases hdown
    · exact .inr (takenDown_of_suffix hends honly)
    · rw [TakenDown.append_nil hnone, ← mem_verbsOn, verbsOn_append, hnone, List.append_nil,
        mem_verbsOn]
      exact h.down (hsame.symm.trans hdown)

end Running

/-- **A unit that the attempts on a feature have started, and that is out of the scope of its row, was
    taken down since its last start, unless it was left running**; then nothing was done to it since.
    All attempts on the feature are to have succeeded. -/
theorem taken_down_unless_left_running {σ : Type} {c : FeatureConfig} {host : Host σ}
    {sink : Option (StatusSink σ)} {d : Daemon σ} (hd : c.daemon host sink = .ok d) {k : Knowledge}
    {past : List Attempt} (h : d.Lived k past) (name : String)
    (hok : ∀ a ∈ past, a.delta.id = featureId name → a.succeeded = true) {unit : String}
    (hstarted : Action.service unit .start ∈ effectsOf (Daemon.onKey (featureId name) past))
    (hout : unit ∉ c.manager.unitsOf name (k.snapshot.row? (featureId name))) :
    (leftRunning c.manager name unit (Daemon.onKey (featureId name) past) = false →
      TakenDown unit (effectsOf (Daemon.onKey (featureId name) past))) ∧
    (leftRunning c.manager name unit (Daemon.onKey (featureId name) past) = true →
      sinceStart (verbsOn unit (effectsOf (Daemon.onKey (featureId name) past))) = []) := by
  obtain ⟨-, -, hr⟩ := FeatureConfig.daemon_parts hd
  have hstanding : Standing c.manager name unit (k.applied.get? (featureId name))
      (Daemon.onKey (featureId name) past) :=
    (h.course (featureId name)).of_succeeded hr .begin (fun _ _ _ hs => hs.attempt) fun a ha =>
      hok a (Daemon.mem_onKey.mp ha).1 (Daemon.mem_onKey.mp ha).2
  rw [h.row?_eq hok] at hout
  have hrunning : running c.manager name unit (k.applied.get? (featureId name))
      (Daemon.onKey (featureId name) past) =
        leftRunning c.manager name unit (Daemon.onKey (featureId name) past) := if_neg hout
  rw [← hrunning]
  exact ⟨fun hdown => (hstanding.down hdown).resolve_left (not_not.mpr hstarted), hstanding.up⟩

/-! ## 3. A scope that shrinks -/

section Bench

open Daemon (onKey)

/-- A feature that runs has a unit for the device and one for each chip. -/
def bothScopes : ChangeEvent :=
  .set (featureId "bgp") (.ofList [("has_per_asic_scope", "True"), ("state", "enabled")])

/-- It has none for the chips any more. -/
def deviceScope : ChangeEvent := .set (featureId "bgp") (.ofList [("state", "enabled")])

/-- The feature appears and is gone again. -/
def wholeLife : Knowledge × List Attempt :=
  twoChipped.lifeOf () [bothScopes, .del (featureId "bgp")]

/-- In between, its scope shrinks. -/
def shrunkLife : Knowledge × List Attempt :=
  twoChipped.lifeOf () [bothScopes, deviceScope, .del (featureId "bgp")]

/-- The deletion of the row takes down the units of the chips. -/
theorem taken_down_wholeLife :
    twoChips.daemon obliging none = .ok twoChipped ∧
    twoChipped.Lived wholeLife.1 wholeLife.2 ∧
    (∀ a ∈ wholeLife.2, a.delta.id = featureId "bgp" → a.succeeded = true) ∧
    Action.service "bgp@0.service" .start ∈ effectsOf (onKey (featureId "bgp") wholeLife.2) ∧
    "bgp@0.service" ∉ twoChips.manager.unitsOf "bgp" (wholeLife.1.snapshot.row? (featureId "bgp")) ∧
    TakenDown "bgp@0.service" (effectsOf (onKey (featureId "bgp") wholeLife.2)) := by
  obtain ⟨hall, hstarted, hout, hleft⟩ : (wholeLife.2.all Attempt.succeeded) = true ∧
      Action.service "bgp@0.service" .start ∈ effectsOf (onKey (featureId "bgp") wholeLife.2) ∧
      "bgp@0.service" ∉
        twoChips.manager.unitsOf "bgp" (wholeLife.1.snapshot.row? (featureId "bgp")) ∧
      leftRunning twoChips.manager "bgp" "bgp@0.service"
        (onKey (featureId "bgp") wholeLife.2) = false := by
    decide +kernel
  have hlived := twoChipped.lived_lifeOf () [bothScopes, .del (featureId "bgp")]
  have hok : ∀ a ∈ wholeLife.2, a.delta.id = featureId "bgp" → a.succeeded = true :=
    fun a ha _ => List.all_eq_true.mp hall a ha
  have htaken :=
    (taken_down_unless_left_running twoChipped_made hlived "bgp" hok hstarted hout).1 hleft
  exact ⟨twoChipped_made, hlived, hok, hstarted, hout, htaken⟩

/-- **The unit of a chip goes on running when the scope has shrunk and the row is deleted**, though
    every action of every plan succeeded. -/
theorem scope_change_leaves_running :
    twoChipped.Lived shrunkLife.1 shrunkLife.2 ∧
    shrunkLife.2.map (fun a => (a.delta.id, a.succeeded)) =
      [(featureId "bgp", true), (featureId "bgp", true), (featureId "bgp", true)] ∧
    Action.service "bgp@0.service" .start ∈ effectsOf shrunkLife.2 ∧
    shrunkLife.1.snapshot.row? (featureId "bgp") = none ∧
    verbsOn "bgp@0.service" (effectsOf shrunkLife.2) = bringUp ∧
    ¬ TakenDown "bgp@0.service" (effectsOf shrunkLife.2) := by
  obtain ⟨hattempts, hstarted, hgone, hverbs⟩ :
      shrunkLife.2.map (fun a => (a.delta.id, a.succeeded)) =
        [(featureId "bgp", true), (featureId "bgp", true), (featureId "bgp", true)] ∧
      Action.service "bgp@0.service" .start ∈ effectsOf shrunkLife.2 ∧
      shrunkLife.1.snapshot.row? (featureId "bgp") = none ∧
      verbsOn "bgp@0.service" (effectsOf shrunkLife.2) = bringUp := by
    decide +kernel
  refine ⟨twoChipped.lived_lifeOf () _, hattempts, hstarted, hgone, hverbs, ?_⟩
  unfold TakenDown
  rw [hverbs]
  decide

end Bench

end Converge
