import Converge.Config.Daemons
import Converge.Toml.Value

/-!
# Settings in a file

The tables of a settings file, read as settings. A section or a field that is left out has its
default; a name that is not known is passed over; a value of the wrong kind, or a number that does
not fit its field, makes the file unusable.

* A section may be written as a list of its fields in order, of which the last ones may be left
  out.
* In the file of a daemon with a section of its own, the shared sections are read through a narrow
  gate: their lists may have no more items than the section has fields, and outside the own section
  no integer may go beyond 64 bits.
-/

namespace Converge.Config

open Toml (Value Entries)

/-! ## 1. Fields -/

/-- The field of a name and a place in its section, if it is there. -/
abbrev Fields := String → Nat → Option Value

/-- The fields of a section. A moment has the fields of an empty section. -/
def fieldsOf? (narrow : Bool) (size : Nat) : Value → Option Fields
  | .table es => some fun name _ => Entries.get? es name
  | .arr items => if narrow && size < items.length then none else some fun _ i => items[i]?
  | .moment => some fun _ _ => none
  | _ => none

/-- Reads a field, or takes its default. -/
def field {α : Type} (fs : Fields) (name : String) (place : Nat) (read : Value → Option α)
    (default : α) : Option α :=
  match fs name place with
  | none => some default
  | some v => read v

def text? : Value → Option String
  | .str s => some s
  | _ => none

def texts? : Value → Option (List String)
  | .arr items => items.mapM text?
  | _ => none

/-- A natural number below a bound. -/
def below? (bound : Nat) : Value → Option Nat
  | .int n => if 0 ≤ n && n < bound then some n.toNat else none
  | _ => none

def word16? (v : Value) : Option UInt16 := (below? 0x10000 v).map fun n => n.toUInt16

def word32? (v : Value) : Option UInt32 := (below? 0x100000000 v).map fun n => n.toUInt32

def word64? (v : Value) : Option UInt64 := (below? 0x10000000000000000 v).map fun n => n.toUInt64

/-! ## 2. Sections -/

def store? (fs : Fields) : Option StoreConfig := do
  let d : StoreConfig := {}
  some {
    host := ← field fs "redis_host" 0 text? d.host
    port := ← field fs "redis_port" 1 word16? d.port
    configDb := ← field fs "config_db_number" 2 word32? d.configDb
    statusDb := ← field fs "state_db_number" 3 word32? d.statusDb }

def loop? (fs : Fields) : Option LoopConfig := do
  let d : LoopConfig := {}
  some {
    selectTimeoutMs := ← field fs "select_timeout_ms" 0 word64? d.selectTimeoutMs
    backoffInitialMs := ← field fs "backoff_initial_ms" 1 word64? d.backoffInitialMs
    backoffMaxMs := ← field fs "backoff_max_ms" 2 word64? d.backoffMaxMs
    resyncIntervalSecs := ← field fs "resync_interval_secs" 3 word64? d.resyncIntervalSecs }

def executor? (fs : Fields) : Option ExecutorConfig := do
  let d : ExecutorConfig := {}
  some {
    commandTimeoutSecs := ← field fs "command_timeout_secs" 0 word64? d.commandTimeoutSecs
    maxParallel := ← field fs "max_parallel" 1 word64? d.maxParallel
    commandPrefix := ← field fs "command_prefix" 2 texts? d.commandPrefix
    systemctlPath := ← field fs "systemctl_path" 3 text? d.systemctlPath
    iptablesPath := ← field fs "iptables_path" 4 text? d.iptablesPath }

def feature? (fs : Fields) : Option FeatureSection := do
  let d : FeatureSection := {}
  some {
    unitDir := ← field fs "systemd_dir" 0 text? d.unitDir
    chips := ← field fs "num_asics" 1 word64? d.chips }

def bmp? (fs : Fields) : Option BmpSection := do
  let d : BmpSection := {}
  some { unit := ← field fs "bmp_unit" 0 text? d.unit }

/-- Reads a section, or takes the default one. -/
def section? {α : Type} (narrow : Bool) (es : Entries) (name : String) (size : Nat)
    (read : Fields → Option α) (default : α) : Option α :=
  match es.get? name with
  | none => some default
  | some v => (fieldsOf? narrow size v).bind read

/-! ## 3. Files -/

/-- The shared settings. -/
def shared? (narrow : Bool) (es : Entries) : Option CommonConfig := do
  some {
    store := ← section? narrow es "store" 4 store? {}
    loop := ← section? narrow es "daemon" 4 loop? {}
    executor := ← section? narrow es "executor" 5 executor? {} }

/-- Every integer outside the named section fits 64 bits. -/
def narrowBut (own : String) (es : Entries) : Bool :=
  Toml.entriesNarrow (es.filter fun e => e.1 != own)

/-- The shared settings and the section of a daemon's own. -/
def withOwn? {α β : Type} (own : String) (size : Nat) (read : Fields → Option α) (default : α)
    (build : CommonConfig → α → β) (es : Entries) : Option β :=
  if narrowBut own es then do
    let common ← shared? true es
    let part ← section? false es own size read default
    some (build common part)
  else none

end Config

/-- The shared settings of a file. -/
def CommonConfig.ofEntries? (es : Toml.Entries) : Option CommonConfig := Config.shared? false es

/-- The settings of the daemon of the features. -/
def FeatureConfig.ofEntries? (es : Toml.Entries) : Option FeatureConfig :=
  Config.withOwn? "featured" 2 Config.feature? {} FeatureConfig.mk es

/-- The settings of the daemon of the monitoring protocol. -/
def BmpConfig.ofEntries? (es : Toml.Entries) : Option BmpConfig :=
  Config.withOwn? "bmpcfgd" 1 Config.bmp? {} BmpConfig.mk es

end Converge
