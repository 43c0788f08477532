import Converge.HostService.Reply

/-!
# Restarting and stopping services

The requests that restart or stop a service of the host. Only the services of a fixed list may be
named; for any other the answer is a refusal, and nothing is run.

A restart first clears the failure count of the service. The restart goes on if this succeeds, or
if its error output says that there was nothing to clear.
-/

namespace Converge.HostService

/-- The services that may be named. -/
def allowedServices : List String :=
  ["snmp", "swss", "dhcp_relay", "radv", "restapi", "lldp", "sshd", "pmon", "rsyslog",
    "telemetry"]

/-- How services are controlled. -/
structure UnitControl where
  tool : String := "/usr/bin/systemctl"
  timeout : Duration := CommandSpec.defaultTimeout

namespace UnitControl

variable {σ : Type}

/-- Why a service may not be named, if it may not. -/
def refusal? (service method operation : String) : Option Reply :=
  if service.isEmpty then
    some ⟨Reply.failureStatus, "Dbus " ++ method ++ " called with no service specified"⟩
  else if allowedServices.contains service then none
  else
    some ⟨Reply.failureStatus,
      "Dbus does not support " ++ service ++ " service " ++ operation⟩

/-- The command for a verb on a service. -/
def command (c : UnitControl) (verb service : String) : CommandSpec :=
  (CommandSpec.ofArgv [c.tool, verb, service]).withTimeout c.timeout

/-- The words of an error output that says that there was nothing to clear. -/
def nothingToClear : String := "Failed to reset failed state"

/-- Restarts a service. -/
def restart (c : UnitControl) (host : Host σ) (service : String) (s : σ) : Ran σ Reply :=
  match refusal? service "restart_service" "restart" with
  | some refusal => .idle refusal s
  | none =>
    let clear := c.command "reset-failed" service
    match host.run clear s with
    | (.error e, s) => ⟨Reply.ofError e, s, [.call clear]⟩
    | (.ok r, s) =>
      if !r.success && !Text.occurs nothingToClear r.stderr then
        let reply := Reply.ofExecStderr r
        ⟨reply, s, [.call clear, .audit (auditReply "systemd" "reset-failed" reply)]⟩
      else
        let later :=
          runAudited host "systemd" "restart" Reply.ofExecStderr (c.command "restart" service) s
        { later with deeds := .call clear :: later.deeds }

/-- Stops a service. -/
def stop (c : UnitControl) (host : Host σ) (service : String) (s : σ) : Ran σ Reply :=
  match refusal? service "stop_service" "management" with
  | some refusal => .idle refusal s
  | none => runAudited host "systemd" "stop" Reply.ofExecStderr (c.command "stop" service) s

end UnitControl

end Converge.HostService
