import Converge.Bmp.Daemon
import Converge.Proofs.Daemon.Course

/-!
# Restarts of the monitoring service

A changed selection stops and starts the unit of the monitoring service. Both verbs are on one
resource, so the start is not tried if the stop fails, but the stop stays if the start fails.

* `effects_cases`: what an attempt has done to the unit, one case for each way in which it can end;
* `lastSwitch`: the last of the stops and starts that succeeded; `lastSwitch_eq_stop_iff`: it is a stop
  exactly if the last attempt that stopped the unit has failed (`LeftStopped`);
* **`clean_pass_running_iff`**: behind a full pass in which nothing failed the last one is a start,
  unless the unit was left stopped and the pass went back to the selection that was last applied. The
  policy then finds no change and plans nothing, although the unit is down
  (`clean_pass_leaves_stopped`).
-/

namespace Converge

/-! ## 1. What an attempt does to the unit -/

/-- The name of the row that counts. -/
def selectionId : RowKey := ⟨BmpConfig.table, BmpManager.selectionKey⟩

/-- The selection of a row; without a row nothing is selected. -/
def BmpSelection.ofRow? (row : Option Row) : BmpSelection := .ofRow (row.getD .empty)

/-- The change is one of the selection. -/
def Reselects (delta : RowDelta) : Prop :=
  delta.id = selectionId ∧ BmpSelection.ofRow? delta.old ≠ BmpSelection.ofRow? delta.new

/-- The actions of a restart. -/
def restartOf (unit : String) : List Action := [.service unit .stop, .service unit .start]

section Attempts

variable {σ : Type} {c : BmpConfig} {host : Host σ} {sink : Option (StatusSink σ)} {d : Daemon σ}

/-- The daemon of the monitoring protocol, on any host, and with any place for status rows or none. -/
theorem BmpConfig.daemon_eq (hd : c.daemon host sink = .ok d) :
    d = ⟨BmpConfig.daemonName, [BmpConfig.table],
      ⟨SortedMap.empty.insert BmpConfig.table c.manager.policy⟩,
      ⟨host, c.common.executor, BmpConfig.daemonName⟩, sink, c.common.loop.settings⟩ :=
  (Except.ok.inj hd).symm

/-- Other tables than that of the monitoring protocol have no policy. -/
theorem BmpConfig.plan_eq (hd : c.daemon host sink = .ok d) (delta : RowDelta) :
    d.registry.plan delta =
      if delta.id.table = BmpConfig.table then
        .ok (c.manager.plan delta.id.key (delta.old.getD .empty) (delta.new.getD .empty))
      else .error (.unknownTable delta.id.table) := by
  obtain rfl := daemon_eq hd
  unfold Registry.plan
  simp only [SortedMap.get?_insert]
  split_ifs <;> rfl

/-- **A change of the selection plans a restart, any other change of the table plans nothing.** -/
theorem BmpManager.plan_cases (m : BmpManager) {delta : RowDelta}
    (htable : delta.id.table = BmpConfig.table) :
    (Reselects delta ∧
      m.plan delta.id.key (delta.old.getD .empty) (delta.new.getD .empty) = restartOf m.unit) ∨
    (¬ Reselects delta ∧
      m.plan delta.id.key (delta.old.getD .empty) (delta.new.getD .empty) = []) := by
  have hid : delta.id = selectionId ↔ delta.id.key = BmpManager.selectionKey :=
    (RowKey.eq_iff_of_table (b := selectionId) htable).symm
  unfold BmpManager.plan
  by_cases hkey : delta.id.key = BmpManager.selectionKey
  · rw [if_neg (by simp [hkey])]
    by_cases hsame : BmpSelection.ofRow (delta.old.getD .empty) =
        BmpSelection.ofRow (delta.new.getD .empty)
    · exact .inr ⟨fun h => h.2 hsame, if_pos hsame⟩
    · exact .inl ⟨⟨hid.mpr hkey, hsame⟩, if_neg hsame⟩
  · exact .inr ⟨fun h => hkey (hid.mp h.1), if_pos (by simpa using hkey)⟩

/-- What an attempt has done, and whether it succeeded, if it was to change the selection. -/
inductive RestartEnd (unit : String) : List Action → Bool → Prop where
  /-- The unit could not be stopped. -/
  | untouched : RestartEnd unit [] false
  /-- The unit was stopped and could not be started again. -/
  | stopped : RestartEnd unit [.service unit .stop] false
  | restarted : RestartEnd unit (restartOf unit) true

theorem prefix_restartOf {unit : String} {effects : List Action} (h : effects <+: restartOf unit) :
    effects = [] ∨ effects = [.service unit .stop] ∨ effects = restartOf unit := by
  rcases List.prefix_cons_iff.mp h with hnone | ⟨later, hstop, hlater⟩
  · exact .inl hnone
  · rcases List.prefix_cons_iff.mp hlater with rfl | ⟨behind, rfl, hbehind⟩
    · exact .inr (.inl hstop)
    · rw [List.prefix_nil.mp hbehind] at hstop
      exact .inr (.inr hstop)

/-- **What an attempt has done**: nothing unless it was to change the selection. -/
theorem effects_cases (hd : c.daemon host sink = .ok d) {a : Attempt} (h : d.Genuine a) :
    (Reselects a.delta ∧ RestartEnd c.manager.unit a.effects a.succeeded) ∨
    (¬ Reselects a.delta ∧ a.effects = []) := by
  have hplan := c.plan_eq hd a.delta
  by_cases htable : a.delta.id.table = BmpConfig.table
  · rw [if_pos htable] at hplan
    rcases c.manager.plan_cases htable with ⟨hnew, he⟩ | ⟨hsame, he⟩
    · rw [he] at hplan
      have hiff := h.succeeded_iff_effects hplan
      have hprefix := h.effects_prefix hplan (r := "unit:" ++ c.manager.unit)
        (by simp [restartOf, Action.resource])
      refine .inl ⟨hnew, ?_⟩
      rcases prefix_restartOf hprefix with hends | hends | hends
      · have hfailed : a.succeeded = false := Bool.eq_false_iff.mpr fun ok => by
          have hall := hends.symm.trans (hiff.mp ok)
          cases hall
        rw [hends, hfailed]
        exact .untouched
      · have hfailed : a.succeeded = false := Bool.eq_false_iff.mpr fun ok => by
          have hall := hends.symm.trans (hiff.mp ok)
          cases hall
        rw [hends, hfailed]
        exact .stopped
      · rw [hiff.mpr hends, hends]
        exact .restarted
    · rw [he] at hplan
      exact .inr ⟨hsame, List.sublist_nil.mp (h.effects_sublist hplan)⟩
  · rw [if_neg htable] at hplan
    exact .inr ⟨fun hnew => htable (congrArg RowKey.table hnew.1), h.effects_of_refused hplan⟩

end Attempts

/-! ## 2. The last stop or start -/

/-- The last of the stops and starts of a unit. -/
def lastSwitch (unit : String) (actions : List Action) : Option UnitVerb :=
  ((verbsOn unit actions).filter fun verb => verb = .stop ∨ verb = .start).getLast?

theorem lastSwitch_append (unit : String) (first later : List Action) :
    lastSwitch unit (first ++ later) = (lastSwitch unit later).or (lastSwitch unit first) := by
  unfold lastSwitch
  rw [verbsOn_append, List.filter_append, List.getLast?_append]

theorem stop_or_start_of_lastSwitch {unit : String} {actions : List Action} {verb : UnitVerb}
    (h : lastSwitch unit actions = some verb) : verb = .stop ∨ verb = .start := by
  have hmem := List.mem_of_getLast? h
  simpa using (List.mem_filter.mp hmem).2

@[simp] theorem lastSwitch_nil (unit : String) : lastSwitch unit [] = none := rfl

@[simp] theorem lastSwitch_stop (unit : String) :
    lastSwitch unit [.service unit .stop] = some .stop := by
  simp [lastSwitch, verbsOn]

@[simp] theorem lastSwitch_restartOf (unit : String) :
    lastSwitch unit (restartOf unit) = some .start := by
  simp [lastSwitch, verbsOn, restartOf]

/-- The last attempt that stopped the unit. -/
def lastStopping (unit : String) (past : List Attempt) : Option Attempt :=
  past.reverse.find? fun a => a.effects.contains (.service unit .stop)

/-- The last attempt that stopped the unit has failed: the unit could not be started again. -/
def LeftStopped (unit : String) (past : List Attempt) : Prop :=
  ∃ a, lastStopping unit past = some a ∧ a.succeeded = false

section Running

variable {σ : Type} {c : BmpConfig} {host : Host σ} {sink : Option (StatusSink σ)} {d : Daemon σ}
  {k : Knowledge} {past : List Attempt}

/-- **The last switch was a stop exactly if the unit was left stopped.** -/
theorem lastSwitch_eq_stop_iff (hd : c.daemon host sink = .ok d)
    (hall : ∀ a ∈ past, d.Genuine a) :
    lastSwitch c.manager.unit (effectsOf past) = some .stop ↔
      LeftStopped c.manager.unit past := by
  induction past using List.reverseRecOn with
  | nil => exact ⟨nofun, nofun⟩
  | append_singleton past a ih =>
    have ih := ih fun b hb => hall b (List.mem_append_left _ hb)
    have ha := hall a (List.mem_append_right _ (List.mem_singleton_self a))
    rw [effectsOf_append, effectsOf_singleton, lastSwitch_append]
    unfold LeftStopped lastStopping at ih ⊢
    rw [List.reverse_append, List.reverse_singleton, List.singleton_append, List.find?_cons]
    have hcases := effects_cases hd ha
    generalize a.effects = effects at hcases ⊢
    generalize hok : a.succeeded = ok at hcases
    rcases hcases with ⟨-, hend⟩ | ⟨-, rfl⟩
    · cases hend with
      | untouched => simpa using ih
      | stopped => simp [hok]
      | restarted =>
        have hstops : Action.service c.manager.unit .stop ∈ restartOf c.manager.unit :=
          List.mem_cons_self
        simp [hok, hstops]
    · simpa using ih

/-- The last switch of a full pass in which nothing failed: a start if the pass went to another
    selection, and else none. -/
theorem lastSwitch_clean_pass (hd : c.daemon host sink = .ok d) {snapshot : Snapshot} {s : σ}
    (hclean : (d.fullPass snapshot k s).value.2.failed = 0) :
    lastSwitch c.manager.unit
        (effectsOf (d.attempts k.applied (passDeltas k.applied snapshot) s)) =
      if BmpSelection.ofRow? (k.applied.get? selectionId) =
        BmpSelection.ofRow? (snapshot.row? selectionId) then none else some .start := by
  have hids := Daemon.nodup_passDeltas k.applied snapshot
  have hends := fun a (ha : a ∈ d.attempts k.applied (passDeltas k.applied snapshot) s) =>
    effects_cases hd (d.genuine_of_mem hids ha)
  have hothers : ∀ a ∈ d.attempts k.applied (passDeltas k.applied snapshot) s,
      a.delta.id ≠ selectionId → a.effects = [] := fun a ha hid =>
    ((hends a ha).resolve_left fun h => hid h.1.1).2
  rw [← Daemon.effectsOf_onKey hothers]
  rcases d.onKey_pass_cases k snapshot s selectionId with
    ⟨hold, hnew, hnone⟩ | ⟨a, ha, hone, hdelta⟩
  · rw [hnone, hold, hnew, if_pos rfl]
    rfl
  · have ok := Daemon.succeeded_of_clean_pass hclean a ha
    rw [hone, effectsOf_singleton]
    rcases hends a ha with ⟨⟨-, hne⟩, hend⟩ | ⟨hsame, hnone⟩
    · rw [hdelta] at hne
      rw [ok] at hend
      rw [if_neg hne]
      generalize a.effects = effects at hend ⊢
      cases hend
      exact lastSwitch_restartOf c.manager.unit
    · unfold Reselects at hsame
      rw [hdelta] at hsame
      rw [hnone, if_pos (not_not.mp fun hne => hsame ⟨rfl, hne⟩)]
      rfl

/-- **After a full pass in which nothing failed the last stop or start of the unit is a start, unless
    the unit was left stopped and the pass went back to the selection that was last applied.** -/
theorem clean_pass_running_iff (hd : c.daemon host sink = .ok d) (h : d.Lived k past)
    (snapshot : Snapshot) (s : σ) (hclean : (d.fullPass snapshot k s).value.2.failed = 0) :
    (∀ verb, lastSwitch c.manager.unit (effectsOf
        (past ++ d.attempts k.applied (passDeltas k.applied snapshot) s)) = some verb →
          verb = .start) ↔
      ¬ (LeftStopped c.manager.unit past ∧ BmpSelection.ofRow? (k.applied.get? selectionId) =
        BmpSelection.ofRow? (snapshot.row? selectionId)) := by
  rw [effectsOf_append, lastSwitch_append, lastSwitch_clean_pass hd hclean,
    ← lastSwitch_eq_stop_iff hd (h.genuine d)]
  by_cases hsame : BmpSelection.ofRow? (k.applied.get? selectionId) =
      BmpSelection.ofRow? (snapshot.row? selectionId)
  · rw [if_pos hsame, Option.none_or]
    constructor
    · rintro hstart ⟨hstop, -⟩
      cases hstart _ hstop
    · intro hstop verb hverb
      refine (stop_or_start_of_lastSwitch hverb).resolve_left fun hv => hstop ⟨?_, hsame⟩
      rw [hverb, hv]
  · rw [if_neg hsame, Option.some_or]
    exact ⟨fun _ hstop => hsame hstop.2, fun _ verb hverb => (Option.some.inj hverb).symm⟩

end Running

/-! ## 3. A unit that stays down -/

section Bench

open Daemon (Lived)

/-- A host on which units can always be stopped, and can be started in one mood only. -/
def reluctant : Host Bool where
  run c s := (.ok ⟨if c.argv.contains "start" && !s then 1 else 0, "", ""⟩, s)
  writeFile _ _ s := (.ok (), s)
  removeFile _ s := (.ok (), s)

/-- The daemon of the monitoring protocol on that host. -/
def monitor : Daemon Bool where
  name := BmpConfig.daemonName
  tables := [BmpConfig.table]
  registry := ⟨SortedMap.empty.insert BmpConfig.table (BmpConfig.manager {}).policy⟩
  executor := ⟨reluctant, {}, BmpConfig.daemonName⟩
  sink := none
  settings := LoopConfig.settings {}

theorem monitor_made : ({} : BmpConfig).daemon reluctant none = .ok monitor := rfl

/-- The neighbors are selected. -/
def selects : ChangeEvent := .set selectionId (.ofList [("bgp_neighbor_table", "true")])

/-- What the daemon knows when its unit could be stopped but not be started again. -/
def knownDown : Knowledge := (monitor.lifeOf false [selects]).1

/-- The attempt that stopped the unit. -/
def pastDown : List Attempt := (monitor.lifeOf false [selects]).2

theorem lived_pastDown : Lived monitor knownDown pastDown := monitor.lived_lifeOf false [selects]

theorem leftStopped_pastDown : LeftStopped "bmp.service" pastDown := by
  have hfailed : (lastStopping "bmp.service" pastDown).map Attempt.succeeded = some false := by
    decide +kernel
  exact Option.map_eq_some_iff.mp hfailed

/-- A table with one selection. -/
def selection (field value : String) : Snapshot :=
  ⟨.ofList [(BmpConfig.table, .ofList [(BmpManager.selectionKey, .ofList [(field, value)])])]⟩

/-- The attempts when a full pass over a selection has followed. -/
def pastDownAndPass (snapshot : Snapshot) : List Attempt :=
  pastDown ++ monitor.attempts knownDown.applied (passDeltas knownDown.applied snapshot) true

/-- A full pass that goes to another selection starts the unit that was left stopped. -/
theorem clean_pass_running_reselected :
    ({} : BmpConfig).daemon reluctant none = .ok monitor ∧ Lived monitor knownDown pastDown ∧
    (monitor.fullPass (selection "bgp_rib_in_table" "true") knownDown true).value.2.failed = 0 ∧
    LeftStopped "bmp.service" pastDown ∧
    ∀ verb, lastSwitch "bmp.service" (effectsOf
      (pastDownAndPass (selection "bgp_rib_in_table" "true"))) = some verb → verb = .start := by
  have hclean : (monitor.fullPass (selection "bgp_rib_in_table" "true")
      knownDown true).value.2.failed = 0 := by decide +kernel
  have hother : BmpSelection.ofRow? (knownDown.applied.get? selectionId) ≠
      BmpSelection.ofRow? ((selection "bgp_rib_in_table" "true").row? selectionId) := by
    decide +kernel
  have hiff := clean_pass_running_iff monitor_made lived_pastDown _ true hclean
  exact ⟨monitor_made, lived_pastDown, hclean, leftStopped_pastDown,
    hiff.mpr fun hback => hother hback.2⟩

/-- **A full pass in which nothing failed leaves the unit stopped**: the row says that the neighbors
    are not selected any more, as it was before the unit was stopped, so nothing is planned. -/
theorem clean_pass_leaves_stopped :
    Lived monitor
      (monitor.fullPass (selection "bgp_neighbor_table" "false") knownDown true).value.1
      (pastDownAndPass (selection "bgp_neighbor_table" "false")) ∧
    (monitor.fullPass (selection "bgp_neighbor_table" "false") knownDown true).value.2 =
      ⟨1, 1, 0⟩ ∧
    lastSwitch "bmp.service" (effectsOf
      (pastDownAndPass (selection "bgp_neighbor_table" "false"))) = some .stop :=
  ⟨.pass lived_pastDown _ true, by decide +kernel, by decide +kernel⟩

end Bench

end Converge
