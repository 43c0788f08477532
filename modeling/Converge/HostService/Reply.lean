import Converge.Executor.Host

/-!
# Replies to administrators

A request of an administrator ends with a reply: a status, zero for success, and a message.
`auditReply` is the audit entry of a request that ended so.
-/

namespace Converge.HostService

/-- The answer to a request. -/
structure Reply where
  status : Int
  message : String
deriving DecidableEq, Repr

namespace Reply

/-- The status of a request that failed on this side. -/
def failureStatus : Int := 1

def ok : Reply := ⟨0, ""⟩

def isOk (r : Reply) : Bool := r.status == 0

/-- The reply after a command; a failure shows the first error line. -/
def ofExec (r : ExecResult) : Reply :=
  if r.success then ok else ⟨r.exitCode, r.errorLine.getD ""⟩

/-- The reply after a command; a failure shows the whole error output. -/
def ofExecStderr (r : ExecResult) : Reply :=
  if r.success then ok else ⟨r.exitCode, r.stderr⟩

def ofError (e : Error) : Reply := ⟨failureStatus, e.message⟩

end Reply

/-- The audit entry of a request. -/
def auditReply (service action : String) (reply : Reply) : Audit.Entry :=
  let entry := Audit.Entry.of .adminAction service action
  if reply.isOk then entry.withOutcome .success
  else entry.withError ("status " ++ toString reply.status ++ ": " ++ reply.message)

/-- A request that runs one command and tells how it came out. -/
def runAudited {σ : Type} (host : Host σ) (service action : String) (ofExec : ExecResult → Reply)
    (command : CommandSpec) (s : σ) : Ran σ Reply :=
  let (r, s) := host.run command s
  let reply :=
    match r with
    | .ok r => ofExec r
    | .error e => Reply.ofError e
  ⟨reply, s, [.call command, .audit (auditReply service action reply)]⟩

end Converge.HostService
