import Converge.Config.Reading
import Converge.Files.Tree
import Converge.Toml.Reader
import Converge.Toml.Writer

/-!
# Settings files

`Config.load` reads a settings file; a file that is not there stands for the defaults. `Config.save`
writes one, with every section and every field.
-/

namespace Converge

open Toml (Plain Sheet)

/-! ## 1. Sheets -/

def StoreConfig.fields (c : StoreConfig) : List (String × Plain) :=
  [("redis_host", .text c.host), ("redis_port", .number c.port.toNat),
    ("config_db_number", .number c.configDb.toNat), ("state_db_number", .number c.statusDb.toNat)]

def LoopConfig.fields (c : LoopConfig) : List (String × Plain) :=
  [("select_timeout_ms", .number c.selectTimeoutMs.toNat),
    ("backoff_initial_ms", .number c.backoffInitialMs.toNat),
    ("backoff_max_ms", .number c.backoffMaxMs.toNat),
    ("resync_interval_secs", .number c.resyncIntervalSecs.toNat)]

def ExecutorConfig.fields (c : ExecutorConfig) : List (String × Plain) :=
  [("command_timeout_secs", .number c.commandTimeoutSecs.toNat),
    ("max_parallel", .number c.maxParallel.toNat), ("command_prefix", .texts c.commandPrefix),
    ("systemctl_path", .text c.systemctlPath), ("iptables_path", .text c.iptablesPath)]

/-- The sheet of the shared settings. -/
def CommonConfig.sheet (c : CommonConfig) : Sheet :=
  [("store", c.store.fields), ("daemon", c.loop.fields), ("executor", c.executor.fields)]

/-- The sheet of the settings of the daemon of the features. -/
def FeatureConfig.sheet (c : FeatureConfig) : Sheet :=
  c.common.sheet ++
    [("featured", [("systemd_dir", .text c.own.unitDir), ("num_asics", .number c.own.chips.toNat)])]

/-- The sheet of the settings of the daemon of the monitoring protocol. -/
def BmpConfig.sheet (c : BmpConfig) : Sheet :=
  c.common.sheet ++ [("bmpcfgd", [("bmp_unit", .text c.own.unit)])]

/-! ## 2. Files -/

namespace Config

open Files (Tree)

/-- The settings in a text. -/
def parse? {α : Type} (read : Toml.Entries → Option α) (text : String) : Option α :=
  (Toml.parse? text).bind read

/-- Loads settings; without a file they are the defaults. -/
def load {α : Type} (read : Toml.Entries → Option α) (default : α) (files : Tree)
    (path : String) : Except Error α :=
  match files.readText path with
  | .error fault => if fault.isMissing then .ok default else .error (.io path fault)
  | .ok text =>
    match parse? read text with
    | some settings => .ok settings
    | none => .error (.config path "failed to parse")

/-- Saves a sheet. -/
def save (sheet : Sheet) (files : Tree) (path : String) : Except Error Tree :=
  match files.write path (Text.encode sheet.text) with
  | .error fault => .error (.io path fault)
  | .ok files => .ok files

end Config

end Converge
