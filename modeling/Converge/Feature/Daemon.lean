import Converge.Config.Daemons
import Converge.Daemon.Basic
import Converge.Feature.Manager

/-!
# The daemon of the features

It tracks one table, whose policy is that of the features.
-/

namespace Converge.FeatureConfig

variable {σ : Type}

/-- The name of the daemon, and of its own section. -/
def daemonName : String := "featured"

/-- The table of the features. -/
def table : String := "FEATURE"

/-- The manager that the settings ask for. -/
def manager (c : FeatureConfig) : FeatureManager := ⟨c.own.unitDir, c.own.chips.toNat⟩

/-- The daemon on a host. -/
def daemon (c : FeatureConfig) (host : Host σ) (sink : Option (StatusSink σ)) :
    Except Error (Daemon σ) := do
  let registry ← Registry.empty.register table c.manager.policy
  Daemon.create daemonName [table] registry host c.common.executor sink c.common.loop.settings

end Converge.FeatureConfig
