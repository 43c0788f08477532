import Converge.Daemon.Loop

/-!
# Signals

A signal to terminate or to interrupt asks the daemon to stop; a hangup asks it to read all rows
anew, or does nothing. Once the daemon was asked to stop, signals no longer matter.
-/

namespace Converge

/-- The signals that a daemon knows. -/
inductive Signal where
  | terminate
  | interrupt
  | hangup
deriving DecidableEq, Repr

/-- What a hangup does. -/
inductive HangupAction where
  | ignore
  | resync
deriving DecidableEq, Repr

instance : Inhabited HangupAction := ⟨.ignore⟩

/-- A signal arrives. -/
def Loop.signal {σ : Type} (l : Loop σ) (onHangup : HangupAction) (s : Signal) : Loop σ :=
  if l.stopAsked then l
  else
    match s, onHangup with
    | .hangup, .ignore => l
    | .hangup, .resync => { l with resyncAsked := true }
    | _, _ => { l with stopAsked := true }

end Converge
