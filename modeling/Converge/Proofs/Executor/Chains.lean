import Converge.Proofs.Executor.Locality

/-!
# What a chain does, report by report

The reports of a chain tell everything that it has done: which commands the host has got, which audit
entries were made, and what became of the host. Nothing is assumed of the host.

* `act_cases`: an action of a chain is skipped or applied, and its deeds are those that its report
  tells of (`deedsOf`);
* `isSkipped_iff`: an action is skipped exactly if an earlier one on its resource did not succeed, be
  it that it failed or that it was itself skipped;
* `outcome_eq`: any other action is applied to the host as the reports before it have left it
  (`hostAfter`);
* `deeds_runActions`: the deeds of a chain are those of its reports, one report after another;
* **`execute_told`**: all of it together.
-/

namespace Converge

/-! ## 1. What a report tells of -/

/-- The action was not tried. -/
def ActionOutcome.isSkipped : ActionOutcome → Bool
  | .skipped _ => true
  | _ => false

/-- The outcome as audit entries have it. -/
def ActionOutcome.audited : ActionOutcome → Audit.Outcome
  | .success => .success
  | .failed _ => .failure
  | .skipped _ => .skipped

/-- The command that was run for the action: none for a file, and none if the action was skipped. -/
def ActionReport.command? (cfg : ExecutorConfig) (x : ActionReport) : Option CommandSpec :=
  if x.action.isCommand && !x.outcome.isSkipped then some (cfg.commandFor x.action) else none

/-- A host that writes down the commands it gets. -/
structure Host.Logs {σ : Type} (h : Host σ) (log : σ → List CommandSpec) : Prop where
  run : ∀ c s, log (h.run c s).2 = log s ++ [c]
  writeFile : ∀ path content s, log (h.writeFile path content s).2 = log s
  removeFile : ∀ path s, log (h.removeFile path s).2 = log s

namespace Executor

variable {σ : Type} (ex : Executor σ)

/-- The audit entry of an action that came to its report. -/
def entryOn (correlation : Option String) (x : ActionReport) : Audit.Entry :=
  entryWithOutcome (entryOf ex.source correlation x.action) x.outcome

/-- What can be seen of an action that came to its report: the command, and the audit entry behind
    it. -/
def deedsOf (correlation : Option String) (x : ActionReport) : List Deed :=
  (x.command? ex.config).toList.map .call ++ [.audit (ex.entryOn correlation x)]

/-- The host after reports: the actions that were not skipped, applied one after another. -/
def hostAfter (reports : List ActionReport) (s : σ) : σ :=
  reports.foldl (fun s x => if x.outcome.isSkipped then s else (ex.apply x.action s).host) s

theorem resource_entryOn (correlation : Option String) (x : ActionReport) :
    (ex.entryOn correlation x).resource = some x.action.resource := by
  have hbefore : (entryOf ex.source correlation x.action).resource = some x.action.resource := by
    unfold entryOf
    cases correlation <;> cases x.action <;> rfl
  unfold entryOn
  cases x.outcome with
  | success => exact hbefore
  | failed failure => exact hbefore
  | skipped reason => exact hbefore

theorem outcome_entryOn (correlation : Option String) (x : ActionReport) :
    (ex.entryOn correlation x).outcome = x.outcome.audited := by
  unfold entryOn
  cases x.outcome <;> rfl

/-! ## 2. One action -/

/-- An action that is applied is not skipped. -/
theorem isSkipped_apply (a : Action) (s : σ) : (ex.apply a s).value.isSkipped = false := by
  have hexec : ∀ r, (outcomeOfExec r).isSkipped = false := by
    intro r
    unfold outcomeOfExec
    split
    · split <;> rfl
    · rfl
    · rfl
  have hfile : ∀ path r, (outcomeOfFile path r).isSkipped = false := by
    intro path r
    cases r <;> rfl
  cases a with
  | service unit verb => exact hexec _
  | rule change spec => exact hexec _
  | managerReload => exact hexec _
  | writeFile path content => exact hfile path _
  | removeFile path => exact hfile path _

/-- Only an action that is done by a command runs one. -/
theorem deeds_apply (a : Action) (s : σ) :
    (ex.apply a s).deeds = if a.isCommand then [.call (ex.config.commandFor a)] else [] := by
  cases a <;> rfl

/-- **An action of a chain is skipped if its resource is spoiled, and otherwise applied.** -/
theorem act_cases (correlation : Option String) (spoiled : List String) (a : Action) (s : σ) :
    (a.resource ∈ spoiled ∧ ex.act correlation spoiled a s =
      ⟨.skipped (skipReason a.resource), s,
        ex.deedsOf correlation ⟨a, .skipped (skipReason a.resource)⟩⟩) ∨
    (a.resource ∉ spoiled ∧ ex.act correlation spoiled a s =
      ⟨(ex.apply a s).value, (ex.apply a s).host,
        ex.deedsOf correlation ⟨a, (ex.apply a s).value⟩⟩) := by
  unfold act attempt
  by_cases hr : a.resource ∈ spoiled
  · refine .inl ⟨hr, ?_⟩
    rw [if_pos (List.contains_iff_mem.mpr hr)]
    simp [Ran.idle, deedsOf, entryOn, ActionReport.command?, ActionOutcome.isSkipped]
  · refine .inr ⟨hr, ?_⟩
    rw [if_neg (by rwa [List.contains_iff_mem])]
    have hcommand : (ActionReport.command? ex.config ⟨a, (ex.apply a s).value⟩).toList.map .call =
        (ex.apply a s).deeds := by
      rw [deeds_apply, ActionReport.command?, isSkipped_apply]
      cases a.isCommand <;> rfl
    simp only [deedsOf, hcommand, entryOn]

theorem deeds_act (correlation : Option String) (spoiled : List String) (a : Action) (s : σ) :
    (ex.act correlation spoiled a s).deeds =
      ex.deedsOf correlation ⟨a, (ex.act correlation spoiled a s).value⟩ := by
  rcases ex.act_cases correlation spoiled a s with ⟨-, he⟩ | ⟨-, he⟩ <;> rw [he]

/-- The spoiled resources after one more action. -/
theorem mem_spoil {spoiled : List String} {a : Action} {o : ActionOutcome} {r : String} :
    r ∈ spoil spoiled a o ↔ r ∈ spoiled ∨ (a.resource = r ∧ o ≠ .success) := by
  cases o with
  | success => simp [spoil, ActionOutcome.isSuccess]
  | failed failure => simp [spoil, ActionOutcome.isSuccess, eq_comm, or_comm]
  | skipped reason => simp [spoil, ActionOutcome.isSuccess, eq_comm, or_comm]

/-! ## 3. Chains -/

section Chains

variable (correlation : Option String)

/-- A chain is its first action and the rest of it, which finds the resource of the first action
    spoiled if that did not succeed. -/
theorem runActions_cons (spoiled : List String) (a : Action) (rest : List Action) (s : σ) :
    let first := ex.act correlation spoiled a s
    let later := ex.runActions correlation (spoil spoiled a first.value) rest first.host
    ex.runActions correlation spoiled (a :: rest) s =
      ⟨⟨a, first.value⟩ :: later.value, later.host, first.deeds ++ later.deeds⟩ := by
  intro first later
  show Ran.mk _ _ (first.deeds ++ (later.deeds ++ [])) = _
  rw [List.append_nil]
  rfl

/-- The reports of a chain in front of an action: either there are none, or the first action has one
    and the others are in front of the action in the rest of the chain. -/
theorem split_runActions {spoiled : List String} {a : Action} {rest : List Action} {s : σ}
    {before after : List ActionReport} {x : ActionReport}
    (h : (ex.runActions correlation spoiled (a :: rest) s).value = before ++ x :: after) :
    let first := ex.act correlation spoiled a s
    (before = [] ∧ x = ⟨a, first.value⟩) ∨
    ∃ before', before = ⟨a, first.value⟩ :: before' ∧
      (ex.runActions correlation (spoil spoiled a first.value) rest first.host).value =
        before' ++ x :: after := by
  intro first
  rw [runActions_cons] at h
  cases before with
  | nil => exact .inl ⟨rfl, (List.cons.inj h).1.symm⟩
  | cons y before' =>
    obtain ⟨hy, hrest⟩ := List.cons.inj h
    exact .inr ⟨before', by rw [← hy], hrest⟩

/-- **An action is skipped exactly if its resource was spoiled at the beginning, or an earlier action
    on it did not succeed.** -/
theorem isSkipped_iff : ∀ {actions : List Action} {spoiled : List String} {s : σ}
    {before after : List ActionReport} {x : ActionReport},
    (ex.runActions correlation spoiled actions s).value = before ++ x :: after →
      (x.outcome.isSkipped = true ↔ x.action.resource ∈ spoiled ∨
        ∃ y ∈ before, y.action.resource = x.action.resource ∧ y.outcome ≠ .success)
  | [], _, _, before, _, _, h => by cases before <;> cases h
  | a :: rest, spoiled, s, before, after, x, h => by
    rcases ex.split_runActions correlation h with ⟨rfl, rfl⟩ | ⟨before', rfl, hrest⟩
    · simp only [List.not_mem_nil, false_and, exists_false, or_false]
      rcases ex.act_cases correlation spoiled a s with ⟨hr, he⟩ | ⟨hr, he⟩
      · rw [he]
        exact ⟨fun _ => hr, fun _ => rfl⟩
      · rw [he, isSkipped_apply]
        exact ⟨nofun, fun h => absurd h hr⟩
    · -- what the first action spoils counts as spoiled for the rest
      rw [isSkipped_iff hrest, mem_spoil, List.exists_mem_cons_iff, or_assoc]

/-- A skipped action names its resource as the reason. -/
theorem skipped_eq : ∀ {actions : List Action} {spoiled : List String} {s : σ} {x : ActionReport},
    x ∈ (ex.runActions correlation spoiled actions s).value → x.outcome.isSkipped = true →
      x.outcome = .skipped (skipReason x.action.resource)
  | [], _, _, _, h, _ => absurd h List.not_mem_nil
  | a :: rest, spoiled, s, x, h, hx => by
    rw [runActions_cons] at h
    rcases List.mem_cons.mp h with rfl | h
    · rcases ex.act_cases correlation spoiled a s with ⟨-, he⟩ | ⟨-, he⟩
      · rw [he]
      · rw [he, isSkipped_apply] at hx
        cases hx
    · exact skipped_eq h hx

/-- The host after one more report in front. -/
theorem hostAfter_act (spoiled : List String) (a : Action) (later : List ActionReport) (s : σ) :
    ex.hostAfter (⟨a, (ex.act correlation spoiled a s).value⟩ :: later) s =
      ex.hostAfter later (ex.act correlation spoiled a s).host := by
  show ex.hostAfter later (if _ then s else _) = _
  rcases ex.act_cases correlation spoiled a s with ⟨-, he⟩ | ⟨-, he⟩
  · rw [he]
    rfl
  · rw [he, isSkipped_apply]
    rfl

/-- **An action that is not skipped is applied to the host as the reports before it have left it.** -/
theorem outcome_eq : ∀ {actions : List Action} {spoiled : List String} {s : σ}
    {before after : List ActionReport} {x : ActionReport},
    (ex.runActions correlation spoiled actions s).value = before ++ x :: after →
      x.outcome.isSkipped = false →
        x.outcome = (ex.apply x.action (ex.hostAfter before s)).value
  | [], _, _, before, _, _, h, _ => by cases before <;> cases h
  | a :: rest, spoiled, s, before, after, x, h, hx => by
    rcases ex.split_runActions correlation h with ⟨rfl, rfl⟩ | ⟨before', rfl, hrest⟩
    · rcases ex.act_cases correlation spoiled a s with ⟨-, he⟩ | ⟨-, he⟩
      · rw [he] at hx
        cases hx
      · rw [he]
        rfl
    · rw [hostAfter_act]
      exact outcome_eq hrest hx

theorem host_runActions : ∀ (spoiled : List String) (actions : List Action) (s : σ),
    (ex.runActions correlation spoiled actions s).host =
      ex.hostAfter (ex.runActions correlation spoiled actions s).value s
  | _, [], _ => rfl
  | spoiled, a :: rest, s => by
    rw [runActions_cons, hostAfter_act]
    exact host_runActions _ rest _

/-- **The deeds of a chain are those that its reports tell of**, one report after another. -/
theorem deeds_runActions : ∀ (spoiled : List String) (actions : List Action) (s : σ),
    (ex.runActions correlation spoiled actions s).deeds =
      (ex.runActions correlation spoiled actions s).value.flatMap (ex.deedsOf correlation)
  | _, [], _ => rfl
  | spoiled, a :: rest, s => by
    rw [runActions_cons, List.flatMap_cons, ← deeds_act, ← deeds_runActions]

theorem command?_deedsOf (x : ActionReport) :
    (ex.deedsOf correlation x).filterMap Deed.command? = (x.command? ex.config).toList := by
  unfold deedsOf
  cases x.command? ex.config <;> rfl

theorem entry?_deedsOf (x : ActionReport) :
    (ex.deedsOf correlation x).filterMap Deed.entry? = [ex.entryOn correlation x] := by
  unfold deedsOf
  cases x.command? ex.config <;> rfl

theorem commands_runActions (spoiled : List String) (actions : List Action) (s : σ) :
    (ex.runActions correlation spoiled actions s).commands =
      (ex.runActions correlation spoiled actions s).value.filterMap
        (ActionReport.command? ex.config) := by
  unfold Ran.commands
  rw [deeds_runActions, List.filterMap_flatMap, List.filterMap_eq_flatMap_toList]
  exact List.flatMap_congr fun x _ => ex.command?_deedsOf correlation x

theorem entries_runActions (spoiled : List String) (actions : List Action) (s : σ) :
    (ex.runActions correlation spoiled actions s).entries =
      (ex.runActions correlation spoiled actions s).value.map (ex.entryOn correlation) := by
  unfold Ran.entries
  rw [deeds_runActions, List.filterMap_flatMap, List.map_eq_flatMap]
  exact List.flatMap_congr fun x _ => ex.entry?_deedsOf correlation x

end Chains

/-- What a host has written down after an action that was applied to it. -/
theorem log_apply {log : σ → List CommandSpec} (h : ex.host.Logs log) (a : Action) (s : σ) :
    log (ex.apply a s).host = log s ++ (ex.apply a s).commands := by
  cases a with
  | service unit verb => exact h.run _ s
  | rule change spec => exact h.run _ s
  | managerReload => exact h.run _ s
  | writeFile path content => exact (h.writeFile path content s).trans (List.append_nil _).symm
  | removeFile path => exact (h.removeFile path s).trans (List.append_nil _).symm

/-- A host gets the commands of a chain, in order and once each. -/
theorem log_runActions {log : σ → List CommandSpec} (h : ex.host.Logs log)
    (correlation : Option String) : ∀ (spoiled : List String) (actions : List Action) (s : σ),
      log (ex.runActions correlation spoiled actions s).host =
        log s ++ (ex.runActions correlation spoiled actions s).commands
  | _, [], _ => (List.append_nil _).symm
  | spoiled, a :: rest, s => by
    have hfirst : log (ex.act correlation spoiled a s).host =
        log s ++ (ex.act correlation spoiled a s).commands := by
      rw [commands_act]
      show log (ex.attempt spoiled a s).host = _
      unfold attempt
      split
      · exact (List.append_nil _).symm
      · exact ex.log_apply h a s
    have hlater := log_runActions h correlation
      (spoil spoiled a (ex.act correlation spoiled a s).value) rest
      (ex.act correlation spoiled a s).host
    rw [runActions_cons]
    show log (ex.runActions _ _ rest _).host = log s ++ List.filterMap _ (_ ++ _)
    rw [hlater, hfirst, List.filterMap_append, List.append_assoc]
    rfl

/-! ## 4. All of it together -/

/-- What a chain has done, told by its reports. -/
structure Told (correlation : Option String) (actions : List Action) (s : σ)
    (r : Ran σ (List ActionReport)) : Prop where
  /-- Every action has one report, in order. -/
  reported : r.value.map (·.action) = actions
  /-- An action is skipped exactly if an earlier action on its resource did not succeed. -/
  skipped_iff : ∀ before x after, r.value = before ++ x :: after →
    (x.outcome.isSkipped = true ↔
      ∃ y ∈ before, y.action.resource = x.action.resource ∧ y.outcome ≠ .success)
  reason : ∀ x ∈ r.value, x.outcome.isSkipped = true →
    x.outcome = .skipped (skipReason x.action.resource)
  /-- Any other action has the outcome of applying it to the host as it is then. -/
  applied : ∀ before x after, r.value = before ++ x :: after → x.outcome.isSkipped = false →
    x.outcome = (ex.apply x.action (ex.hostAfter before s)).value
  host_eq : r.host = ex.hostAfter r.value s
  /-- The commands are those of the actions that are done by a command and were not skipped, in
      order; a host that writes down its commands has got just these. -/
  commands_eq : r.commands = r.value.filterMap (ActionReport.command? ex.config)
  received : ∀ log, ex.host.Logs log → log r.host = log s ++ r.commands
  /-- Every action has one audit entry, in order, with its resource and its outcome. -/
  entries_eq : r.entries = r.value.map (ex.entryOn correlation)
  about : ∀ x ∈ r.value, (ex.entryOn correlation x).resource = some x.action.resource ∧
    (ex.entryOn correlation x).outcome = x.outcome.audited
  /-- The entry of an action stands behind its command. -/
  deeds_eq : r.deeds = r.value.flatMap (ex.deedsOf correlation)

/-- **A chain, whatever its actions are and whatever the host answers.** -/
theorem execute_told (actions : List Action) (s : σ) :
    ex.Told none actions s (ex.execute actions s) where
  reported := ex.actions_runActions none [] actions s
  skipped_iff before x after h := by
    rw [ex.isSkipped_iff none h]
    simp only [List.not_mem_nil, false_or]
  reason _ hx := ex.skipped_eq none hx
  applied _ _ _ h hx := ex.outcome_eq none h hx
  host_eq := ex.host_runActions none [] actions s
  commands_eq := ex.commands_runActions none [] actions s
  received _ hlog := ex.log_runActions hlog none [] actions s
  entries_eq := ex.entries_runActions none [] actions s
  about x _ := ⟨ex.resource_entryOn none x, ex.outcome_entryOn none x⟩
  deeds_eq := ex.deeds_runActions none [] actions s

end Executor

end Converge
