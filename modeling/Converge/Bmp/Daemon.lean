import Converge.Bmp.Manager
import Converge.Config.Daemons
import Converge.Daemon.Basic

/-!
# The daemon of the monitoring protocol

It tracks one table, whose policy is that of the monitoring protocol.
-/

namespace Converge.BmpConfig

variable {σ : Type}

/-- The name of the daemon, and of its own section. -/
def daemonName : String := "bmpcfgd"

/-- The table of the monitoring protocol. -/
def table : String := "BMP"

/-- The manager that the settings ask for. -/
def manager (c : BmpConfig) : BmpManager := ⟨c.own.unit⟩

/-- The daemon on a host. -/
def daemon (c : BmpConfig) (host : Host σ) (sink : Option (StatusSink σ)) :
    Except Error (Daemon σ) := do
  let registry ← Registry.empty.register table c.manager.policy
  Daemon.create daemonName [table] registry host c.common.executor sink c.common.loop.settings

end Converge.BmpConfig
