import Converge.Proofs.Executor.Chains

/-!
# The part of a chain on one resource

Resources fail independently of each other: what a chain does on a resource is what the actions on the
resource do by themselves.

* `AlikeOn` relates two hosts that commands on a resource cannot tell apart;
* `act_elsewhere`, `act_on`: an action on another resource goes unnoticed, and an action on the
  resource comes out the same on both hosts;
* `reportsOn_runActions`: so a chain, seen from the resource, is the chain of the actions on it;
* **`execute_projection`**: what is run on other resources can never be seen on the resource, if what
  a command answers depends on the command alone.
-/

namespace Converge

variable {σ τ : Type}

/-! ## 1. Seen from a resource -/

/-- The actions on a resource, in order. -/
def actionsOn (r : String) (actions : List Action) : List Action :=
  actions.filter fun a => a.resource = r

/-- The reports on the actions on a resource, in order. -/
def reportsOn (r : String) (reports : List ActionReport) : List ActionReport :=
  reports.filter fun x => x.action.resource = r

/-- What a command answers depends on the command alone. -/
def Host.ByCommand (h : Host σ) : Prop := ∀ c s s', (h.run c s).1 = (h.run c s').1

/-- From related states the hosts answer the commands on the resource alike and come to related
    states; and whatever else the first host runs, its states stay related. -/
structure Host.AlikeOn (cfg : ExecutorConfig) (r : String) (h : Host σ) (h' : Host τ)
    (Rel : σ → τ → Prop) : Prop where
  answers : ∀ c s t, cfg.resourceOf c = r → Rel s t → (h.run c s).1 = (h'.run c t).1
  both : ∀ c s t, cfg.resourceOf c = r → Rel s t → Rel (h.run c s).2 (h'.run c t).2
  elsewhere : ∀ c s t, cfg.resourceOf c ≠ r → Rel s t → Rel (h.run c s).2 t

/-- On hosts whose answers depend on the command alone, all states are related. -/
theorem alikeOn_of_answers {cfg : ExecutorConfig} {r : String} {h : Host σ} {h' : Host τ}
    (heq : ∀ c s t, cfg.resourceOf c = r → (h.run c s).1 = (h'.run c t).1) :
    h.AlikeOn cfg r h' fun _ _ => True where
  answers c s t hc _ := heq c s t hc
  both _ _ _ _ _ := trivial
  elsewhere _ _ _ _ _ := trivial

/-- The commands on a resource are those of the reports on it. -/
theorem onResource_commands (cfg : ExecutorConfig) (r : String) (reports : List ActionReport) :
    cfg.onResource r (reports.filterMap (ActionReport.command? cfg)) =
      (reportsOn r reports).filterMap (ActionReport.command? cfg) := by
  unfold ExecutorConfig.onResource reportsOn
  rw [List.filter_filterMap, List.filterMap_filter]
  refine List.filterMap_congr fun x _ => ?_
  unfold ActionReport.command?
  by_cases hx : (x.action.isCommand && !x.outcome.isSkipped) = true
  · have hcommand := resourceOf_commandFor cfg (Bool.and_eq_true_iff.mp hx).1
    rw [if_pos hx, Option.filter_some, hcommand]
  · rw [if_neg hx, Option.filter_none, ite_self]

/-! ## 2. One action -/

namespace Executor

section Steps

variable {ex : Executor σ} {ex' : Executor τ} {r : String} {Rel : σ → τ → Prop}

/-- An action on another resource goes unnoticed. -/
theorem act_elsewhere (hex : ex.host.AlikeOn ex.config r ex'.host Rel)
    (correlation : Option String) (spoiled : List String) {a : Action} (ha : a.isCommand = true)
    (har : a.resource ≠ r) {s : σ} {t : τ} (hst : Rel s t) :
    Rel (ex.act correlation spoiled a s).host t := by
  rcases ex.act_cases correlation spoiled a s with ⟨-, he⟩ | ⟨-, he⟩
  · rw [he]
    exact hst
  · rw [he, apply_eq ex ha]
    exact hex.elsewhere _ s t (by rwa [resourceOf_commandFor _ ha]) hst

/-- An action on the resource comes out the same on both hosts. -/
theorem act_on (hex : ex.host.AlikeOn ex.config r ex'.host Rel) (hcfg : ex'.config = ex.config)
    (correlation correlation' : Option String) {spoiled spoiled' : List String}
    (hspoiled : r ∈ spoiled ↔ r ∈ spoiled') {a : Action} (ha : a.isCommand = true)
    (har : a.resource = r) {s : σ} {t : τ} (hst : Rel s t) :
    (ex.act correlation spoiled a s).value = (ex'.act correlation' spoiled' a t).value ∧
      Rel (ex.act correlation spoiled a s).host (ex'.act correlation' spoiled' a t).host := by
  have hcommand : ex.config.resourceOf (ex.config.commandFor a) = r := by
    rw [resourceOf_commandFor _ ha, har]
  rcases ex.act_cases correlation spoiled a s with ⟨hr, he⟩ | ⟨hr, he⟩ <;>
    rcases ex'.act_cases correlation' spoiled' a t with ⟨hr', he'⟩ | ⟨hr', he'⟩ <;>
    rw [har] at hr hr'
  · rw [he, he']
    exact ⟨rfl, hst⟩
  · exact absurd (hspoiled.mp hr) hr'
  · exact absurd (hspoiled.mpr hr') hr
  · rw [he, he', apply_eq ex ha, apply_eq ex' ha, hcfg]
    exact ⟨congrArg outcomeOfExec (hex.answers _ s t hcommand hst),
      hex.both _ s t hcommand hst⟩

/-! ## 3. Chains -/

/-- **A chain, seen from a resource, is the chain of the actions on the resource.** -/
theorem reportsOn_runActions (hex : ex.host.AlikeOn ex.config r ex'.host Rel)
    (hcfg : ex'.config = ex.config) (correlation correlation' : Option String) :
    ∀ {actions : List Action} {spoiled spoiled' : List String} {s : σ} {t : τ},
      (∀ a ∈ actions, a.isCommand = true) → (r ∈ spoiled ↔ r ∈ spoiled') → Rel s t →
        reportsOn r (ex.runActions correlation spoiled actions s).value =
          (ex'.runActions correlation' spoiled' (actionsOn r actions) t).value
  | [], _, _, _, _, _, _, _ => rfl
  | a :: rest, spoiled, spoiled', s, t, hcmd, hspoiled, hst => by
    have ha := hcmd a List.mem_cons_self
    have hrest : ∀ b ∈ rest, b.isCommand = true := fun b hb => hcmd b (List.mem_cons_of_mem _ hb)
    rw [runActions_cons]
    by_cases har : a.resource = r
    · -- both chains run the action, and agree on whether the resource is spoiled after it
      obtain ⟨hvalue, hhosts⟩ :=
        act_on hex hcfg correlation correlation' hspoiled ha har hst
      have hnext : r ∈ spoil spoiled a (ex.act correlation spoiled a s).value ↔
          r ∈ spoil spoiled' a (ex'.act correlation' spoiled' a t).value := by
        rw [mem_spoil, mem_spoil, hspoiled, hvalue]
      have ih := reportsOn_runActions hex hcfg correlation correlation' hrest hnext hhosts
      have hactions : actionsOn r (a :: rest) = a :: actionsOn r rest :=
        List.filter_cons_of_pos (decide_eq_true har)
      rw [hactions, runActions_cons, ← ih, ← hvalue]
      exact List.filter_cons_of_pos (decide_eq_true har)
    · -- only the longer chain runs the action, and it spoils another resource if any
      have hnext : r ∈ spoil spoiled a (ex.act correlation spoiled a s).value ↔ r ∈ spoiled' := by
        rw [mem_spoil, ← hspoiled]
        exact or_iff_left fun h => har h.1
      have ih := reportsOn_runActions hex hcfg correlation correlation' hrest hnext
        (act_elsewhere hex correlation spoiled ha har hst)
      have hactions : actionsOn r (a :: rest) = actionsOn r rest :=
        List.filter_cons_of_neg (by simpa using har)
      rw [hactions, ← ih]
      exact List.filter_cons_of_neg (by simpa using har)

/-- So it is with the commands on the resource. -/
theorem onResource_runActions (hex : ex.host.AlikeOn ex.config r ex'.host Rel)
    (hcfg : ex'.config = ex.config) (correlation correlation' : Option String)
    {actions : List Action} {s : σ} {t : τ} (hcmd : ∀ a ∈ actions, a.isCommand = true)
    (hst : Rel s t) :
    ex.config.onResource r (ex.runActions correlation [] actions s).commands =
      (ex'.runActions correlation' [] (actionsOn r actions) t).commands := by
  rw [commands_runActions, commands_runActions, onResource_commands,
    reportsOn_runActions hex hcfg correlation correlation' hcmd Iff.rfl hst, hcfg]

end Steps

/-! ## 4. Other resources are never seen -/

/-- On hosts that answer the commands on the resource alike, whatever was run before, a chain does on
    the resource what the actions on it do by themselves. -/
theorem execute_on {ex : Executor σ} {ex' : Executor τ} {r : String} (hcfg : ex'.config = ex.config)
    (heq : ∀ c s t, ex.config.resourceOf c = r → (ex.host.run c s).1 = (ex'.host.run c t).1)
    {actions : List Action} (hcmd : ∀ a ∈ actions, a.isCommand = true) (s : σ) (t : τ) :
    reportsOn r (ex.execute actions s).value = (ex'.execute (actionsOn r actions) t).value ∧
    ex.config.onResource r (ex.execute actions s).commands =
      (ex'.execute (actionsOn r actions) t).commands := by
  have hex : ex.host.AlikeOn ex.config r ex'.host fun _ _ => True := alikeOn_of_answers heq
  exact ⟨reportsOn_runActions hex hcfg none none hcmd Iff.rfl trivial,
    onResource_runActions hex hcfg none none hcmd trivial⟩

/-- **What a chain of commands does on a resource is what the actions on the resource do by
    themselves**, if what a command answers depends on the command alone. So any other chain with
    these actions on the resource does the same there, whatever else is in it, and whatever its host
    answers to that. -/
theorem execute_projection (ex : Executor σ) (hhost : ex.host.ByCommand) {actions : List Action}
    (hcmd : ∀ a ∈ actions, a.isCommand = true) (r : String) (s s' : σ) :
    (reportsOn r (ex.execute actions s).value = (ex.execute (actionsOn r actions) s').value ∧
      ex.config.onResource r (ex.execute actions s).commands =
        (ex.execute (actionsOn r actions) s').commands) ∧
    ∀ (ex' : Executor τ) (others : List Action) (t : τ), ex'.config = ex.config →
      (∀ c s t, ex.config.resourceOf c = r → (ex.host.run c s).1 = (ex'.host.run c t).1) →
      (∀ a ∈ others, a.isCommand = true) → actionsOn r others = actionsOn r actions →
        reportsOn r (ex'.execute others t).value = reportsOn r (ex.execute actions s).value ∧
        ex.config.onResource r (ex'.execute others t).commands =
          ex.config.onResource r (ex.execute actions s).commands := by
  obtain ⟨hreports, hcommands⟩ : _ ∧ _ :=
    execute_on rfl (fun c s t (_ : ex.config.resourceOf c = r) => hhost c s t) hcmd s s'
  refine ⟨⟨hreports, hcommands⟩, fun ex' others t hcfg heq hothers hon => ?_⟩
  -- seen from the resource, the other chain is the same short chain
  have hother : ∀ c t s, ex'.config.resourceOf c = r → (ex'.host.run c t).1 = (ex.host.run c s).1 :=
    fun c t s hc => (heq c s t (by rwa [hcfg] at hc)).symm
  obtain ⟨hreports', hcommands'⟩ := execute_on hcfg.symm hother hothers t s'
  rw [hon] at hreports' hcommands'
  rw [hcfg] at hcommands'
  exact ⟨hreports'.trans hreports.symm, hcommands'.trans hcommands.symm⟩

/-- A host on which some command lines fail. -/
def failingOn (lines : List (List String)) : Host Unit where
  run c s := (.ok ⟨if c.argv ∈ lines then 1 else 0, "", ""⟩, s)
  writeFile _ _ s := (.ok (), s)
  removeFile _ s := (.ok (), s)

/-- Two units that are stopped and started again. -/
def restartBoth : List Action :=
  [.service "ntp.service" .stop, .service "bgp.service" .stop, .service "ntp.service" .start,
    .managerReload, .service "bgp.service" .start]

/-- One unit cannot be stopped and so is not started either; for the other unit it is as if there were
    none but it, and as if nothing failed. -/
theorem execute_projection_restartBoth :
    let ex : Executor Unit := ⟨failingOn [["/bin/systemctl", "stop", "ntp.service"]], {}, "reconcile"⟩
    let calm : Executor Unit := ⟨failingOn [], {}, "reconcile"⟩
    (reportsOn "unit:bgp.service" (ex.execute restartBoth ()).value =
        (ex.execute (actionsOn "unit:bgp.service" restartBoth) ()).value ∧
      ex.config.onResource "unit:bgp.service" (ex.execute restartBoth ()).commands =
        (ex.execute (actionsOn "unit:bgp.service" restartBoth) ()).commands) ∧
    reportsOn "unit:bgp.service" (calm.execute restartBoth ()).value =
      reportsOn "unit:bgp.service" (ex.execute restartBoth ()).value ∧
    (ex.execute restartBoth ()).value.map (·.outcome.isSuccess) =
      [false, true, false, true, true] := by
  intro ex calm
  obtain ⟨hself, hothers⟩ := execute_projection ex (fun _ _ _ => rfl)
    (by decide : ∀ a ∈ restartBoth, a.isCommand = true) "unit:bgp.service" () ()
  refine ⟨hself, (hothers calm restartBoth () rfl ?_ (by decide) rfl).1, by decide +kernel⟩
  intro c s t hc
  show Except.ok (ExecResult.mk _ "" "") = Except.ok (ExecResult.mk _ "" "")
  have hne : c.argv ∉ [["/bin/systemctl", "stop", "ntp.service"]] := by
    intro h
    have hargv : c.argv = ["/bin/systemctl", "stop", "ntp.service"] := List.mem_singleton.mp h
    have hres : ex.config.resourceOf c = "unit:ntp.service" := by
      unfold ExecutorConfig.resourceOf
      rw [hargv]
      decide +kernel
    exact absurd (hres.symm.trans hc) (by decide)
  rw [if_neg hne, if_neg List.not_mem_nil]

end Executor

end Converge
