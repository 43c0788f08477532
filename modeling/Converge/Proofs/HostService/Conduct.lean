import Converge.HostService.UnitControl

/-!
# What a request on a service runs

A restart or a stop gives the host no command but those that it may give, and its reply is that to the
last of them.

* `Host.Runs`: a host goes from one state to another by certain commands, with certain outcomes, and by
  nothing else;
* `Nameable`, `LetsGoOn`: which services may be named, and when a restart goes on behind its first
  command;
* `Conducted`: what is asked of every request on a service; `conducted_refused`, `conducted_calls`: the
  two ways in which it is met;
* **`runs_only_allowed`**: the commands of a stop and of a restart, whatever the host does.
-/

namespace Converge

variable {σ : Type}

/-! ## 1. Commands on a host -/

/-- A command that was given to a host, and how it came out. -/
structure HostCall where
  command : CommandSpec
  outcome : Except Error ExecResult

/-- The command came to an end, with the code zero. -/
def HostCall.Succeeds (call : HostCall) : Prop := ∃ r, call.outcome = .ok r ∧ r.exitCode = 0

/-- From one state of a host to another by a sequence of commands. -/
inductive Host.Runs (host : Host σ) : σ → List HostCall → σ → Prop where
  | nothing (s : σ) : Runs host s [] s
  | call {command : CommandSpec} {outcome : Except Error ExecResult} {s s' s'' : σ}
    {later : List HostCall} (hrun : host.run command s = (outcome, s'))
    (hlater : Runs host s' later s'') : Runs host s (⟨command, outcome⟩ :: later) s''

namespace HostService

/-! ## 2. Replies -/

/-- The reply to the outcome of a command. -/
def replyTo : Except Error ExecResult → Reply
  | .ok r => Reply.ofExecStderr r
  | .error e => Reply.ofError e

/-- **The status is zero for a success only.** -/
theorem status_replyTo (call : HostCall) :
    (replyTo call.outcome).status = 0 ↔ call.Succeeds := by
  unfold HostCall.Succeeds
  cases call.outcome with
  | error e => simp [replyTo, Reply.ofError, Reply.failureStatus]
  | ok r =>
    by_cases hcode : r.exitCode = 0
    · simp [replyTo, Reply.ofExecStderr, ExecResult.success, Reply.ok, hcode]
    · simp [replyTo, Reply.ofExecStderr, ExecResult.success, hcode]

theorem runAudited_eq (host : Host σ) (service action : String) {command : CommandSpec}
    {outcome : Except Error ExecResult} {s s' : σ} (hrun : host.run command s = (outcome, s')) :
    runAudited host service action Reply.ofExecStderr command s =
      ⟨replyTo outcome, s',
        [.call command, .audit (auditReply service action (replyTo outcome))]⟩ := by
  unfold runAudited
  rw [hrun]
  cases outcome <;> rfl

/-! ## 3. Services that may be named -/

/-- The service is named, and on the list. -/
def Nameable (service : String) : Prop := service ≠ "" ∧ service ∈ allowedServices

/-- A refusal is a failure, and none but the services that may not be named are refused. -/
theorem refusal?_cases (service method operation : String) :
    (¬ Nameable service ∧ ∃ refusal,
        UnitControl.refusal? service method operation = some refusal ∧ refusal.status ≠ 0) ∨
      (Nameable service ∧ UnitControl.refusal? service method operation = none) := by
  unfold UnitControl.refusal?
  split
  · rename_i hempty
    exact .inl ⟨fun h => h.1 (String.isEmpty_iff.mp hempty), _, rfl, Int.one_ne_zero⟩
  · rename_i hnamed
    split
    · rename_i hlisted
      exact .inr ⟨⟨fun h => hnamed (String.isEmpty_iff.mpr h), List.contains_iff_mem.mp hlisted⟩, rfl⟩
    · rename_i hunlisted
      exact .inl ⟨fun h => hunlisted (List.contains_iff_mem.mpr h.2), _, rfl, Int.one_ne_zero⟩

/-- A restart goes on behind this outcome of its first command: there was nothing to clear, or it was
    cleared. -/
def LetsGoOn (outcome : Except Error ExecResult) : Prop :=
  ∃ r, outcome = .ok r ∧
    (r.exitCode = 0 ∨ ∃ before after, r.stderr = before ++ "Failed to reset failed state" ++ after)

theorem letsGoOn_iff (r : ExecResult) : LetsGoOn (.ok r) ↔
    (!r.success && !Text.occurs UnitControl.nothingToClear r.stderr) = false := by
  have hcleared : r.success = true ↔ r.exitCode = 0 := beq_iff_eq
  have hnothing := Text.occurs_iff UnitControl.nothingToClear r.stderr
  unfold LetsGoOn
  rw [Bool.and_eq_false_iff, Bool.not_eq_false', Bool.not_eq_false', hcleared, hnothing]
  constructor
  · rintro ⟨r', hr, h⟩
    cases hr
    exact h
  · intro h
    exact ⟨r, rfl, h⟩

/-! ## 4. Requests -/

/-- What is asked of a request on a service that gives certain commands to the host, and means the last
    of these: `final`. -/
structure Conducted (host : Host σ) (service : String) (final : CommandSpec) (s : σ)
    (ran : Ran σ Reply) (calls : List HostCall) : Prop where
  /-- The host underwent these commands, and nothing else. -/
  runs : host.Runs s calls ran.host
  /-- They are the ones that can be seen. -/
  commands_eq : ran.commands = calls.map HostCall.command
  /-- For a service that may not be named there are none, and the answer is a failure. -/
  refused : ¬ Nameable service → calls = [] ∧ ran.value.status ≠ 0
  /-- The reply is that to the last command. -/
  replied : ∀ last ∈ calls.getLast?, ran.value = replyTo last.outcome
  status_iff : ran.value.status = 0 ↔ ∃ call ∈ calls, call.command = final ∧ call.Succeeds

theorem conducted_refused (host : Host σ) {service : String} (final : CommandSpec) (s : σ)
    {refusal : Reply} (hstatus : refusal.status ≠ 0) :
    Conducted host service final s (.idle refusal s) [] where
  runs := .nothing s
  commands_eq := rfl
  refused _ := ⟨rfl, hstatus⟩
  replied := nofun
  status_iff := ⟨fun h => absurd h hstatus, nofun⟩

/-- A request that was begun is as asked if its reply is that to its last command, and if no command
    is the one that is meant, or succeeds, but the last. -/
theorem conducted_calls {host : Host σ} {service : String} {final : CommandSpec} {s : σ}
    {ran : Ran σ Reply} (init : List HostCall) {last : HostCall} (hservice : Nameable service)
    (hruns : host.Runs s (init ++ [last]) ran.host)
    (hcommands : ran.commands = (init ++ [last]).map HostCall.command)
    (hreply : ran.value = replyTo last.outcome)
    (hinit : ∀ call ∈ init, call.command ≠ final)
    (hlast : last.Succeeds → last.command = final) :
    Conducted host service final s ran (init ++ [last]) where
  runs := hruns
  commands_eq := hcommands
  refused h := absurd hservice h
  replied := by
    intro call hcall
    rw [List.getLast?_concat, Option.mem_some_iff] at hcall
    rw [← hcall, hreply]
  status_iff := by
    rw [hreply, status_replyTo]
    constructor
    · intro h
      exact ⟨last, List.mem_concat_self, hlast h, h⟩
    · rintro ⟨call, hmem, hfinal, hsucceeds⟩
      rcases List.mem_append.mp hmem with hearly | hlate
      · exact absurd hfinal (hinit call hearly)
      · rwa [← List.mem_singleton.mp hlate]

variable (c : UnitControl) (host : Host σ) (service : String) (s : σ)

/-- The command for a verb, word for word. -/
theorem command_eq (verb : String) :
    c.command verb service = ⟨[c.tool, verb, service], none, c.timeout⟩ := rfl

theorem command_ne {verb other : String} (h : verb ≠ other) :
    c.command verb service ≠ c.command other service := by
  intro heq
  simp only [command_eq, CommandSpec.mk.injEq, List.cons.injEq, true_and, and_true] at heq
  exact h heq

/-- **A stop** is one command. -/
theorem conducted_stop (hservice : Nameable service) :
    ∃ outcome, Conducted host service (c.command "stop" service) s (c.stop host service s)
      [⟨c.command "stop" service, outcome⟩] := by
  obtain ⟨hnot, -⟩ | ⟨-, hallowed⟩ := refusal?_cases service "stop_service" "management"
  · exact absurd hservice hnot
  obtain ⟨⟨outcome, s'⟩, hrun⟩ : ∃ ran, host.run (c.command "stop" service) s = ran := ⟨_, rfl⟩
  have hstop : c.stop host service s = ⟨replyTo outcome, s', [.call (c.command "stop" service),
      .audit (auditReply "systemd" "stop" (replyTo outcome))]⟩ := by
    unfold UnitControl.stop
    rw [hallowed]
    exact runAudited_eq host "systemd" "stop" hrun
  rw [hstop]
  exact ⟨outcome, conducted_calls [] hservice (.call hrun (.nothing s')) rfl rfl nofun
    fun _ => rfl⟩

/-- **A restart** is one command, or two if the outcome of the first lets it go on. -/
theorem conducted_restart (hservice : Nameable service) :
    ∃ first later, Conducted host service (c.command "restart" service) s
        (c.restart host service s) (⟨c.command "reset-failed" service, first⟩ :: later) ∧
      (LetsGoOn first → ∃ second, later = [⟨c.command "restart" service, second⟩]) ∧
      (¬ LetsGoOn first → later = []) := by
  obtain ⟨hnot, -⟩ | ⟨-, hallowed⟩ := refusal?_cases service "restart_service" "restart"
  · exact absurd hservice hnot
  obtain ⟨⟨first, s'⟩, hclear⟩ : ∃ ran, host.run (c.command "reset-failed" service) s = ran :=
    ⟨_, rfl⟩
  have hverbs : c.command "reset-failed" service ≠ c.command "restart" service :=
    command_ne c service (by decide)
  by_cases hgo : LetsGoOn first
  · -- the first command succeeded, or there was nothing to clear
    obtain ⟨r, rfl, -⟩ := id hgo
    obtain ⟨⟨second, s''⟩, hrestart⟩ : ∃ ran, host.run (c.command "restart" service) s' = ran :=
      ⟨_, rfl⟩
    have hran : c.restart host service s = ⟨replyTo second, s'',
        [.call (c.command "reset-failed" service), .call (c.command "restart" service),
          .audit (auditReply "systemd" "restart" (replyTo second))]⟩ := by
      unfold UnitControl.restart
      rw [hallowed]
      dsimp only
      rw [hclear]
      dsimp only
      rw [(letsGoOn_iff r).mp hgo, if_neg Bool.false_ne_true,
        runAudited_eq host "systemd" "restart" hrestart]
    refine ⟨.ok r, [⟨c.command "restart" service, second⟩], ?_, fun _ => ⟨second, rfl⟩,
      fun h => absurd hgo h⟩
    rw [hran]
    refine conducted_calls [⟨c.command "reset-failed" service, .ok r⟩] hservice
      (.call hclear (.call hrestart (.nothing s''))) rfl rfl ?_ fun _ => rfl
    intro call hcall
    rw [List.mem_singleton.mp hcall]
    exact hverbs
  · -- the reply is that to the first command, which failed
    have hran : (c.restart host service s).value = replyTo first ∧
        (c.restart host service s).host = s' ∧
        (c.restart host service s).commands = [c.command "reset-failed" service] := by
      unfold UnitControl.restart
      rw [hallowed]
      dsimp only
      rw [hclear]
      cases first with
      | error e => exact ⟨rfl, rfl, rfl⟩
      | ok r =>
        have hfailed := eq_true_of_ne_false fun h => hgo ((letsGoOn_iff r).mpr h)
        dsimp only
        rw [hfailed, if_pos rfl]
        exact ⟨rfl, rfl, rfl⟩
    obtain ⟨hreply, hhost, hcommands⟩ := hran
    refine ⟨first, [], ?_, fun h => absurd h hgo, fun _ => rfl⟩
    refine conducted_calls [] hservice (hhost ▸ .call hclear (.nothing s')) hcommands
      hreply nofun ?_
    rintro ⟨r, hr, hcode⟩
    exact absurd ⟨r, hr, .inl hcode⟩ hgo

/-- **Only what it may**, for every service name and whatever the host does. For a service that may not
    be named, a stop and a restart run nothing and fail. For any other a stop runs the one command of
    its name; a restart clears the failure count first, and then runs the command of its name exactly if
    the outcome lets it go on. The status is zero exactly if the command of the name was run and
    succeeded. -/
theorem runs_only_allowed :
    (∃ calls, Conducted host service ⟨[c.tool, "stop", service], none, c.timeout⟩ s
        (c.stop host service s) calls ∧
      (Nameable service → ∃ outcome,
        calls = [⟨⟨[c.tool, "stop", service], none, c.timeout⟩, outcome⟩])) ∧
    (∃ calls, Conducted host service ⟨[c.tool, "restart", service], none, c.timeout⟩ s
        (c.restart host service s) calls ∧
      (Nameable service → ∃ first later,
        calls = ⟨⟨[c.tool, "reset-failed", service], none, c.timeout⟩, first⟩ :: later ∧
        (LetsGoOn first → ∃ second,
          later = [⟨⟨[c.tool, "restart", service], none, c.timeout⟩, second⟩]) ∧
        (¬ LetsGoOn first → later = []))) := by
  constructor
  · obtain ⟨hnot, refusal, hrefusal, hstatus⟩ | ⟨hservice, -⟩ :=
      refusal?_cases service "stop_service" "management"
    · refine ⟨[], ?_, fun h => absurd h hnot⟩
      rw [UnitControl.stop, hrefusal]
      exact conducted_refused host _ s hstatus
    · obtain ⟨outcome, hconducted⟩ := conducted_stop c host service s hservice
      exact ⟨_, hconducted, fun _ => ⟨outcome, rfl⟩⟩
  · obtain ⟨hnot, refusal, hrefusal, hstatus⟩ | ⟨hservice, -⟩ :=
      refusal?_cases service "restart_service" "restart"
    · refine ⟨[], ?_, fun h => absurd h hnot⟩
      rw [UnitControl.restart, hrefusal]
      exact conducted_refused host _ s hstatus
    · obtain ⟨first, later, hconducted, hgo, hstay⟩ := conducted_restart c host service s hservice
      exact ⟨_, hconducted, fun _ => ⟨first, later, rfl, hgo, hstay⟩⟩

end HostService

end Converge
