import Converge.Proofs.Executor.Reports

/-!
# Work on some resources

Commands on different resources do not disturb each other, on a host of the usual kind. This module
says what that means for a piece of work.

* `ExecutorConfig.resourceOf` reads the resource of an action off its command;
* `ByResource` is the host of the usual kind: what a command answers depends on what was run before
  on the resource of the command, and on nothing else;
* `LocalTo R f` says that the work `f` is at home on the resources `R`: its commands are on `R`, and
  hosts that agree on `R` do not differ for it. It holds of an action on its resource
  (`localTo_act`), and **work at home on `R` followed by work at home on `R` is again at home on
  `R`** (`LocalTo.andThen`). So it holds of chains (`localTo_runActions`) and of rows one after
  another (`localTo_runNumbered`).
-/

namespace Converge

/-! ## 1. The resource of a command -/

/-- The action is done by a command. -/
def Action.isCommand : Action → Bool
  | .service .. | .rule .. | .managerReload => true
  | .writeFile .. | .removeFile .. => false

/-- The resource that the words after the program are about. -/
def resourceOfWords : List String → String
  | "-A" :: spec => "rule:" ++ spec.headD ""
  | "-D" :: spec => "rule:" ++ spec.headD ""
  | [_, unit] => "unit:" ++ unit
  | _ => "service-manager"

/-- The resource that a command is about. -/
def ExecutorConfig.resourceOf (cfg : ExecutorConfig) (c : CommandSpec) : String :=
  resourceOfWords (c.argv.drop (cfg.commandPrefix.length + 1))

/-- The commands on a resource, in order. -/
def ExecutorConfig.onResource (cfg : ExecutorConfig) (r : String) (commands : List CommandSpec) :
    List CommandSpec :=
  commands.filter fun c => cfg.resourceOf c = r

/-- The command of an action is about the resource of the action. -/
theorem resourceOf_commandFor (cfg : ExecutorConfig) {a : Action} (h : a.isCommand = true) :
    cfg.resourceOf (cfg.commandFor a) = a.resource := by
  have hdrop : ∀ (program : String) (words : List String),
      (cfg.commandPrefix ++ program :: words).drop (cfg.commandPrefix.length + 1) = words :=
    fun program words => by rw [List.drop_append]; simp
  show resourceOfWords ((cfg.argvFor a).drop _) = _
  unfold ExecutorConfig.argvFor
  cases a with
  | service unit verb =>
    rw [hdrop]
    cases verb <;> rfl
  | rule change spec =>
    rw [hdrop]
    cases change <;> rfl
  | managerReload =>
    rw [hdrop]
    rfl
  | writeFile path content => cases h
  | removeFile path => cases h

namespace ExecutorConfig

variable {cfg : ExecutorConfig} {r : String}

@[simp] theorem onResource_append (xs ys : List CommandSpec) :
    cfg.onResource r (xs ++ ys) = cfg.onResource r xs ++ cfg.onResource r ys :=
  List.filter_append _ _

theorem onResource_eq_nil {xs : List CommandSpec} (h : ∀ c ∈ xs, cfg.resourceOf c ≠ r) :
    cfg.onResource r xs = [] :=
  List.filter_eq_nil_iff.mpr fun c hc => by simpa using h c hc

/-- The same commands were run on each of the resources `R`. -/
def Agree (cfg : ExecutorConfig) (R : String → Prop) (xs ys : List CommandSpec) : Prop :=
  ∀ r, R r → cfg.onResource r xs = cfg.onResource r ys

end ExecutorConfig

namespace Executor

variable {σ α β : Type}

/-! ## 2. Hosts and work -/

/-- A host that writes down the commands it runs, and on which what a command answers depends on the
    command and on the commands that were run before on its resource. -/
structure ByResource (ex : Executor σ) (log : σ → List CommandSpec) : Prop where
  logged : ∀ c s, log (ex.host.run c s).2 = log s ++ [c]
  answers : ∀ c s s',
    ex.config.onResource (ex.config.resourceOf c) (log s) =
      ex.config.onResource (ex.config.resourceOf c) (log s') →
    (ex.host.run c s).1 = (ex.host.run c s').1

/-- The work is at home on the resources `R`. -/
structure LocalTo (cfg : ExecutorConfig) (log : σ → List CommandSpec) (R : String → Prop)
    (f : σ → Ran σ α) : Prop where
  logged : ∀ s, log (f s).host = log s ++ (f s).commands
  within : ∀ s, ∀ c ∈ (f s).commands, R (cfg.resourceOf c)
  same : ∀ s s', cfg.Agree R (log s) (log s') →
    (f s).value = (f s').value ∧ (f s).commands = (f s').commands

namespace LocalTo

variable {cfg : ExecutorConfig} {log : σ → List CommandSpec} {R : String → Prop}
  {f : σ → Ran σ α}

/-- Hosts that agree on `R` before the work agree on `R` after it. -/
theorem agree (h : LocalTo cfg log R f) {s s' : σ} (ha : cfg.Agree R (log s) (log s')) :
    cfg.Agree R (log (f s).host) (log (f s').host) := by
  intro r hr
  rw [h.logged, h.logged, (h.same s s' ha).2, ExecutorConfig.onResource_append,
    ExecutorConfig.onResource_append, ha r hr]

/-- The work does nothing on a resource outside `R`. -/
theorem outside (h : LocalTo cfg log R f) {r : String} (hr : ¬ R r) (s : σ) :
    cfg.onResource r (f s).commands = [] :=
  ExecutorConfig.onResource_eq_nil fun c hc he => hr (he ▸ h.within s c hc)

/-- The host after the work agrees with the host before it on resources outside `R`. -/
theorem agree_outside (h : LocalTo cfg log R f) {Q : String → Prop} (hQ : ∀ r, Q r → ¬ R r)
    (s : σ) : cfg.Agree Q (log (f s).host) (log s) := by
  intro r hr
  rw [h.logged, ExecutorConfig.onResource_append, h.outside (hQ r hr), List.append_nil]

theorem idle (a : α) : LocalTo cfg log R (Ran.idle a) where
  logged _ := (List.append_nil _).symm
  within _ _ hc := absurd hc List.not_mem_nil
  same _ _ _ := ⟨rfl, rfl⟩

/-- **Work at home on `R` after work at home on `R` is at home on `R`.** -/
theorem andThen (h : LocalTo cfg log R f) {g : α → σ → Ran σ β}
    (hg : ∀ a, LocalTo cfg log R (g a)) : LocalTo cfg log R fun s => (f s).andThen g where
  logged s := by
    rw [Ran.commands_andThen, ← List.append_assoc, ← h.logged]
    exact (hg _).logged _
  within s c hc := by
    rw [Ran.commands_andThen, List.mem_append] at hc
    rcases hc with hc | hc
    · exact h.within s c hc
    · exact (hg _).within _ c hc
  same s s' ha := by
    obtain ⟨hv, hc⟩ := h.same s s' ha
    have hg' := (hg (f s').value).same _ _ (h.agree ha)
    rw [Ran.commands_andThen, Ran.commands_andThen, hc]
    show (g (f s).value (f s).host).value = _ ∧ _
    rw [hv]
    exact ⟨hg'.1, congrArg _ hg'.2⟩

end LocalTo

/-! ## 3. Actions and chains -/

section Chains

variable {ex : Executor σ} {log : σ → List CommandSpec} {R : String → Prop}

/-- The action is done by a command, on one of the resources `R`. -/
def OnR (R : String → Prop) (a : Action) : Prop := a.isCommand = true ∧ R a.resource

theorem apply_eq (ex : Executor σ) {a : Action} (h : a.isCommand = true) (s : σ) :
    ex.apply a s = ⟨outcomeOfExec (ex.host.run (ex.config.commandFor a) s).1,
      (ex.host.run (ex.config.commandFor a) s).2, [.call (ex.config.commandFor a)]⟩ := by
  cases a with
  | writeFile path content => cases h
  | removeFile path => cases h
  | service unit verb => rfl
  | rule change spec => rfl
  | managerReload => rfl

/-- An action is at home on its resource. -/
theorem localTo_apply (hex : ByResource ex log) {a : Action} (ha : OnR R a) :
    LocalTo ex.config log R (ex.apply a) where
  logged s := by
    rw [apply_eq ex ha.1]
    exact hex.logged _ s
  within s c hc := by
    rw [apply_eq ex ha.1] at hc
    cases List.mem_singleton.mp hc
    rw [resourceOf_commandFor _ ha.1]
    exact ha.2
  same s s' hag := by
    rw [apply_eq ex ha.1, apply_eq ex ha.1]
    refine ⟨congrArg outcomeOfExec (hex.answers _ s s' ?_), rfl⟩
    rw [resourceOf_commandFor _ ha.1]
    exact hag _ ha.2

theorem localTo_attempt (hex : ByResource ex log) (spoiled : List String) {a : Action}
    (ha : OnR R a) : LocalTo ex.config log R (ex.attempt spoiled a) := by
  unfold attempt
  split
  · exact .idle _
  · exact localTo_apply hex ha

theorem commands_act (ex : Executor σ) (correlation : Option String) (spoiled : List String)
    (a : Action) (s : σ) :
    (ex.act correlation spoiled a s).commands = (ex.attempt spoiled a s).commands := by
  show ((ex.attempt spoiled a s).deeds ++ [_]).filterMap _ = _
  rw [List.filterMap_append]
  exact List.append_nil _

theorem localTo_act (hex : ByResource ex log) (correlation : Option String)
    (spoiled : List String) {a : Action} (ha : OnR R a) :
    LocalTo ex.config log R (ex.act correlation spoiled a) where
  logged s := by
    rw [commands_act]
    exact (localTo_attempt hex spoiled ha).logged s
  within s := by
    rw [commands_act]
    exact (localTo_attempt hex spoiled ha).within s
  same s s' hag := by
    rw [commands_act, commands_act]
    exact (localTo_attempt hex spoiled ha).same s s' hag

/-- **A chain is at home on the resources of its actions.** -/
theorem localTo_runActions (hex : ByResource ex log) (correlation : Option String) :
    ∀ (spoiled : List String) {actions : List Action}, (∀ a ∈ actions, OnR R a) →
      LocalTo ex.config log R (ex.runActions correlation spoiled actions)
  | _, [], _ => .idle _
  | spoiled, a :: _, h =>
    (localTo_act hex correlation spoiled (h a List.mem_cons_self)).andThen fun _ =>
      (localTo_runActions hex correlation _ fun b hb => h b (List.mem_cons_of_mem _ hb)).andThen
        fun _ => .idle _

/-- Chains one after another are at home on the resources of their actions. -/
theorem localTo_runNumbered (hex : ByResource ex log) : ∀ {chains : List (Nat × PlannedDelta)},
    (∀ n ∈ chains, ∀ a ∈ n.2.actions, OnR R a) →
      LocalTo ex.config log R (ex.runNumbered chains)
  | [], _ => .idle _
  | (_, _) :: _, h =>
    ((localTo_runActions hex _ [] (h _ List.mem_cons_self)).andThen fun _ => .idle _).andThen
      fun _ => (localTo_runNumbered hex fun n hn => h n (List.mem_cons_of_mem _ hn)).andThen
        fun _ => .idle _

end Chains

end Executor

end Converge
