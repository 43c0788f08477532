import Converge.Config.File
import Converge.Feature.Daemon
import Converge.Bmp.Daemon

/-!
# Command lines

The first word says which daemon is meant; options name its settings file and the address of its
store. `Invocation.parse` reads the words or says what is wrong with them, and
`Invocation.prepare` makes the daemon from the words and the text of the settings file.
-/

namespace Converge

/-- The daemons that there are. -/
inductive Role where
  | features
  | monitoring
deriving DecidableEq, Repr

namespace Role

/-- The word for a daemon on the command line. -/
def word : Role → String
  | .features => "featured"
  | .monitoring => "bmpcfgd"

def all : List Role := [.features, .monitoring]

def ofWord? (word : String) : Option Role := all.find? fun r => r.word == word

/-- The settings file of a daemon, if none is named. -/
def defaultPath (r : Role) : String := "/etc/sonic/" ++ r.word ++ ".toml"

end Role

/-- What a command line asks for. -/
structure Invocation where
  role : Role
  path : String
  /-- In place of the host in the settings. -/
  host : Option String := none
  /-- In place of the port in the settings. -/
  port : Option UInt16 := none
deriving DecidableEq, Repr

namespace Invocation

def usage : String :=
  "usage: converge featured|bmpcfgd [--config FILE] [--redis-host HOST] [--redis-port PORT]"

/-- The number of a port. -/
def port? (word : String) : Option UInt16 :=
  (word.toNat?.filter (· < 65536)).map Nat.toUInt16

/-- Reads options. -/
def options (i : Invocation) : List String → Except String Invocation
  | [] => .ok i
  | "-c" :: path :: rest | "--config" :: path :: rest => options { i with path } rest
  | "--redis-host" :: host :: rest => options { i with host := some host } rest
  | "--redis-port" :: word :: rest =>
    match port? word with
    | some port => options { i with port := some port } rest
    | none => .error ("invalid port '" ++ word ++ "'")
  | word :: _ => .error ("unexpected argument '" ++ word ++ "'")

/-- **Reads a command line.** -/
def parse : List String → Except String Invocation
  | [] => .error usage
  | word :: rest =>
    match Role.ofWord? word with
    | some role => options ⟨role, role.defaultPath, none, none⟩ rest
    | none => .error ("unknown daemon '" ++ word ++ "'")

/-- The shared settings with the address from the command line. -/
def override (i : Invocation) (c : CommonConfig) : CommonConfig :=
  { c with store := { c.store with
      host := i.host.getD c.store.host
      port := i.port.getD c.store.port } }

/-- The settings in a text, the defaults without one. -/
def settings {α : Type} (i : Invocation) (read : Toml.Entries → Option α) (default : α)
    (text : Option String) : Except Error α :=
  match text with
  | none => .ok default
  | some text =>
    match Config.parse? read text with
    | some c => .ok c
    | none => .error (.config i.path "failed to parse")

/-- **Makes the daemon**, from the text of its settings file if there is one. -/
def prepare {σ : Type} (i : Invocation) (text : Option String) (host : Host σ)
    (sink : Option (StatusSink σ)) : Except Error (Daemon σ) :=
  match i.role with
  | .features => do
    let c ← i.settings FeatureConfig.ofEntries? {} text
    let c := { c with common := i.override c.common }
    c.validate
    c.daemon host sink
  | .monitoring => do
    let c ← i.settings BmpConfig.ofEntries? {} text
    let c := { c with common := i.override c.common }
    c.validate
    c.daemon host sink

end Invocation

end Converge
