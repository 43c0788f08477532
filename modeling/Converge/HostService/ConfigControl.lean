import Converge.Files.Path
import Converge.HostService.Reply
import Converge.Text.Blank

/-!
# Reloading and saving the configuration

The requests that load a configuration into the device and write the running one to a file. Both
run the configuration tool.

* `reload` hands the tool a configuration, unless the given text is blank; then the tool takes the
  saved one.
* `save` names the file, unless it is the tool's own.
-/

namespace Converge.HostService

/-- The configuration tool and the file that it uses unasked. -/
structure ConfigControl where
  tool : String := "/usr/local/bin/config"
  ownFile : String := "/etc/sonic/config_db.json"
  timeout : Duration := CommandSpec.defaultTimeout

namespace ConfigControl

variable {σ : Type}

/-- The command that loads a configuration. -/
def reloadCommand (c : ConfigControl) (configuration : String) : CommandSpec :=
  let words := [c.tool, "reload", "-y"]
  let spec :=
    if Text.isBlank configuration then CommandSpec.ofArgv words
    else (CommandSpec.ofArgv (words ++ ["/dev/stdin"])).withStdin (configuration ++ "\n")
  spec.withTimeout c.timeout

/-- The command that saves the running configuration. -/
def saveCommand (c : ConfigControl) (file : String) : CommandSpec :=
  let words := [c.tool, "save", "-y"]
  let unnamed := file.isEmpty || Path.same file c.ownFile
  (CommandSpec.ofArgv (if unnamed then words else words ++ [file])).withTimeout c.timeout

/-- Loads a configuration. -/
def reload (c : ConfigControl) (host : Host σ) (configuration : String) (s : σ) : Ran σ Reply :=
  runAudited host "config" "reload" Reply.ofExec (c.reloadCommand configuration) s

/-- Saves the running configuration. -/
def save (c : ConfigControl) (host : Host σ) (file : String) (s : σ) : Ran σ Reply :=
  runAudited host "config" "save" Reply.ofExec (c.saveCommand file) s

end ConfigControl

end Converge.HostService
