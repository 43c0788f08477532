import Converge.HostService.ConfigControl
import Converge.HostService.UnitControl

/-!
# What a request leaves in the audit trail

A request of an administrator is refused, or it runs one or two commands. The trail should then
hold one entry that agrees with the reply.

* `Request.answer` is the answer to a request, and `Request.refusal?` the refusal of one that is
  not even begun;
* `Tells` says when an entry agrees with a reply, and `Audited` that the trail of a request is one
  such entry;
* `answer_cases` lists the three ends of a request;
* **`audited_iff_not_lost`**: a request that ran a command is audited, unless it is a restart whose
  clearing of the failure count came to no end. That one leaves no entry at all:
  `lost_restart_untold` is such a restart.
-/

namespace Converge.HostService

variable {σ : Type}

/-! ## 1. Requests -/

/-- What an administrator may ask for. -/
inductive Request where
  | reload (configuration : String)
  | save (file : String)
  | restart (service : String)
  | stop (service : String)
deriving DecidableEq, Repr

/-- The tools that requests are carried out with. -/
structure Tools where
  config : ConfigControl := {}
  units : UnitControl := {}

namespace Request

/-- The answer to a request. -/
def answer (t : Tools) (host : Host σ) (s : σ) : Request → Ran σ Reply
  | .reload configuration => t.config.reload host configuration s
  | .save file => t.config.save host file s
  | .restart service => t.units.restart host service s
  | .stop service => t.units.stop host service s

/-- The refusal of a request that is not begun. -/
def refusal? : Request → Option Reply
  | .reload _ | .save _ => none
  | .restart service => UnitControl.refusal? service "restart_service" "restart"
  | .stop service => UnitControl.refusal? service "stop_service" "management"

/-- The request is a restart whose first command, which clears the failure count, comes to no end
    on the host: it cannot be started, or it runs too long. -/
def Lost (t : Tools) (host : Host σ) (s : σ) : Request → Prop
  | .restart service =>
    UnitControl.refusal? service "restart_service" "restart" = none ∧
      ∃ e, (host.run (t.units.command "reset-failed" service) s).1 = .error e
  | _ => False

end Request

/-! ## 2. Entries and replies -/

/-- An entry agrees with a reply. -/
structure Tells (entry : Audit.Entry) (reply : Reply) : Prop where
  /-- It is an entry of the administrators. -/
  category_eq : entry.category = .adminAction
  success_iff : entry.outcome = .success ↔ reply.status = 0
  /-- A failure shows the status and the message. -/
  failure : reply.status ≠ 0 → entry.outcome = .failure ∧
    entry.error = some ("status " ++ toString reply.status ++ ": " ++ reply.message)

/-- The trail of a request is one entry that agrees with the reply. -/
def Audited (ran : Ran σ Reply) : Prop :=
  ∃ entry, ran.entries = [entry] ∧ Tells entry ran.value

theorem tells_auditReply (service action : String) (reply : Reply) :
    Tells (auditReply service action reply) reply := by
  by_cases h : reply.status = 0
  · have hok : reply.isOk = true := by simpa [Reply.isOk] using h
    constructor <;> simp [auditReply, hok, h, Audit.Entry.of, Audit.Entry.withOutcome]
  · have hok : reply.isOk = false := by simpa [Reply.isOk] using h
    constructor <;> simp [auditReply, hok, h, Audit.Entry.of, Audit.Entry.withError]

/-- The deeds of a request that was carried through: its commands and the entry of its reply. -/
def CarriedThrough (ran : Ran σ Reply) : Prop :=
  ∃ (commands : List CommandSpec) (service action : String), commands ≠ [] ∧
    ran.deeds = commands.map Deed.call ++ [.audit (auditReply service action ran.value)]

theorem carriedThrough_runAudited (host : Host σ) (service action : String)
    (ofExec : ExecResult → Reply) (command : CommandSpec) (s : σ) :
    CarriedThrough (runAudited host service action ofExec command s) :=
  ⟨[command], service, action, by simp, rfl⟩

theorem CarriedThrough.entries {ran : Ran σ Reply} (h : CarriedThrough ran) :
    ∃ service action, ran.entries = [auditReply service action ran.value] := by
  obtain ⟨commands, service, action, -, hdeeds⟩ := h
  refine ⟨service, action, ?_⟩
  have hcalls : (commands.map Deed.call).filterMap Deed.entry? = [] := by
    simp [List.filterMap_map, Deed.entry?]
  simp [Ran.entries, hdeeds, List.filterMap_append, hcalls, Deed.entry?]

theorem CarriedThrough.audited {ran : Ran σ Reply} (h : CarriedThrough ran) : Audited ran := by
  obtain ⟨service, action, hentries⟩ := h.entries
  exact ⟨_, hentries, tells_auditReply service action ran.value⟩

/-! ## 3. The ends of a request -/

/-- A restart that is begun is lost with its first command, or carried through: by the entry of the
    clearing that failed, or by that of the restart. -/
theorem restart_cases (t : Tools) (host : Host σ) (s : σ) {service : String}
    (hbegun : (Request.restart service).refusal? = none) :
    ((Request.restart service).Lost t host s ∧
        ((Request.restart service).answer t host s).deeds =
          [.call (t.units.command "reset-failed" service)]) ∨
      (¬ (Request.restart service).Lost t host s ∧
        CarriedThrough ((Request.restart service).answer t host s)) := by
  simp only [Request.refusal?] at hbegun
  simp only [Request.answer, Request.Lost, UnitControl.restart, hbegun]
  rcases hran : host.run (t.units.command "reset-failed" service) s with ⟨_ | r, s'⟩
  · exact .inl ⟨⟨trivial, _, rfl⟩, rfl⟩
  · refine .inr ⟨by simp, ?_⟩
    dsimp only
    split
    · exact ⟨[_], "systemd", "reset-failed", by simp, rfl⟩
    · exact ⟨[_, t.units.command "restart" service], "systemd", "restart", by simp, rfl⟩

/-- **The three ends of a request**: refused without a trace, lost with one command and no entry,
    or carried through. -/
theorem answer_cases (t : Tools) (host : Host σ) (s : σ) (r : Request) :
    (∃ refusal, r.refusal? = some refusal ∧ r.answer t host s = .idle refusal s) ∨
      (r.Lost t host s ∧ ∃ command, (r.answer t host s).deeds = [.call command]) ∨
      (¬ r.Lost t host s ∧ CarriedThrough (r.answer t host s)) := by
  cases r with
  | reload configuration => exact .inr (.inr ⟨id, carriedThrough_runAudited ..⟩)
  | save file => exact .inr (.inr ⟨id, carriedThrough_runAudited ..⟩)
  | restart service =>
    cases hrefusal : (Request.restart service).refusal? with
    | some refusal =>
      refine .inl ⟨refusal, rfl, ?_⟩
      simp only [Request.refusal?] at hrefusal
      simp only [Request.answer, UnitControl.restart, hrefusal]
    | none =>
      exact .inr ((restart_cases t host s hrefusal).imp_left fun h => ⟨h.1, _, h.2⟩)
  | stop service =>
    cases hrefusal : (Request.stop service).refusal? with
    | some refusal =>
      refine .inl ⟨refusal, rfl, ?_⟩
      simp only [Request.refusal?] at hrefusal
      simp only [Request.answer, UnitControl.stop, hrefusal]
    | none =>
      simp only [Request.refusal?] at hrefusal
      simp only [Request.answer, UnitControl.stop, hrefusal]
      exact .inr (.inr ⟨id, carriedThrough_runAudited ..⟩)

/-! ## 4. Audited requests -/

/-- **A request that ran a command is audited, unless it was lost with its first command**; then it
    leaves no entry. -/
theorem audited_iff_not_lost (t : Tools) (host : Host σ) (s : σ) (r : Request)
    (hrun : (r.answer t host s).commands ≠ []) :
    (Audited (r.answer t host s) ↔ ¬ r.Lost t host s) ∧
      ((r.answer t host s).entries = [] ↔ r.Lost t host s) := by
  obtain ⟨refusal, -, hidle⟩ | ⟨hlost, command, hdeeds⟩ | ⟨hlost, hthrough⟩ :=
    answer_cases t host s r
  · exact absurd (by rw [hidle, Ran.commands_idle]) hrun
  · have hentries : (r.answer t host s).entries = [] := by simp [Ran.entries, hdeeds, Deed.entry?]
    have hunaudited : ¬ Audited (r.answer t host s) := by simp [Audited, hentries]
    exact ⟨iff_of_false hunaudited (not_not_intro hlost), iff_of_true hentries hlost⟩
  · have haudited := hthrough.audited
    obtain ⟨entry, hentries, -⟩ := id haudited
    exact ⟨iff_of_true haudited hlost, iff_of_false (by simp [hentries]) hlost⟩

/-- A host where nothing has failed before and where `snmp` does not start. -/
def stubborn : Host Nat where
  run c n :=
    if c.argv.contains "restart" then (.ok ⟨3, "", "Unit snmp.service not found."⟩, n + 1)
    else (.ok ⟨1, "", "Failed to reset failed state of unit snmp.service: not loaded."⟩, n + 1)
  writeFile _ _ n := (.ok (), n)
  removeFile _ n := (.ok (), n)

/-- The restart there runs both commands and leaves one entry, with the status and the message. -/
theorem audited_iff_not_lost_stubborn :
    ((Request.restart "snmp").answer {} stubborn 0).commands.length = 2 ∧
      ((Request.restart "snmp").answer {} stubborn 0).value =
        ⟨3, "Unit snmp.service not found."⟩ ∧
      Audited ((Request.restart "snmp").answer {} stubborn 0) := by
  have hcommands : ((Request.restart "snmp").answer {} stubborn 0).commands.length = 2 := by
    decide +kernel
  have hvalue : ((Request.restart "snmp").answer {} stubborn 0).value =
      ⟨3, "Unit snmp.service not found."⟩ := by
    decide +kernel
  refine ⟨hcommands, hvalue, ?_⟩
  refine (audited_iff_not_lost {} stubborn 0 (.restart "snmp") ?_).1.2 ?_
  · intro hnil
    simp [hnil] at hcommands
  · rintro ⟨-, e, he⟩
    have hends : (stubborn.run (UnitControl.command {} "reset-failed" "snmp") 0).1.isOk = true := by
      decide +kernel
    rw [he] at hends
    cases hends

/-- A host on which every command runs too long. -/
def tardy : Host Unit where
  run c s := (.error (.commandTimeout c.display c.timeout), s)
  writeFile _ _ s := (.ok (), s)
  removeFile _ s := (.ok (), s)

/-- **A restart that leaves no trace**: the clearing of the failure count runs too long, the reply
    is a failure, and nothing of it is in the trail; a stop that runs too long leaves its entry. -/
theorem lost_restart_untold :
    ((Request.restart "snmp").answer {} tardy ()).commands.length = 1 ∧
      ((Request.restart "snmp").answer {} tardy ()).value.status = 1 ∧
      ((Request.restart "snmp").answer {} tardy ()).entries.length = 0 ∧
      ((Request.stop "snmp").answer {} tardy ()).value.status = 1 ∧
      ((Request.stop "snmp").answer {} tardy ()).entries.length = 1 := by
  decide +kernel

end Converge.HostService
