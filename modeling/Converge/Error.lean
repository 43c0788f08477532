import Converge.Duration
import Converge.IoFault

/-!
# What can go wrong

`Error` names the causes; `Error.message` is the one place that words them.

* Only `storeUnavailable` is meant to reach the loop of a daemon; every other error stays with
  the row, the command or the file that caused it.
* `isRetryable` marks the causes that may pass by themselves.
-/

namespace Converge

/-- The causes of failure. -/
inductive Error where
  /-- The configuration store cannot be reached. -/
  | storeUnavailable (operation message : String)
  /-- The table is not tracked. -/
  | unknownTable (table : String)
  /-- The policy of a table refused a row. -/
  | policy (table key message : String)
  /-- A notification could not be read. -/
  | malformedEvent (origin message : String)
  /-- A command could not be started. -/
  | commandSpawn (command : String) (fault : IoFault)
  /-- A command ran longer than it may. -/
  | commandTimeout (command : String) (timeout : Duration)
  /-- A command ended with a code other than zero. -/
  | commandFailed (command : String) (exitCode : Int) (output : String)
  /-- A file could not be read or written. -/
  | io (path : String) (fault : IoFault)
  /-- A setting is not acceptable. -/
  | config (field message : String)
  /-- A state that should not occur. -/
  | internal (message : String)
deriving DecidableEq, Repr

namespace Error

/-- The wording of an error. -/
def message : Error → String
  | .storeUnavailable operation message =>
    "Config store unavailable during " ++ operation ++ ": " ++ message
  | .unknownTable table => "Unknown table '" ++ table ++ "'"
  | .policy table key message => "Policy error for " ++ table ++ "|" ++ key ++ ": " ++ message
  | .malformedEvent origin message => "Malformed event from " ++ origin ++ ": " ++ message
  | .commandSpawn command fault =>
    "Failed to execute command '" ++ command ++ "': " ++ fault.text
  | .commandTimeout command timeout =>
    "Command '" ++ command ++ "' timed out after " ++ timeout.text
  | .commandFailed command exitCode output =>
    "Command failed: '" ++ command ++ "' (exit code " ++ toString exitCode ++ "): " ++ output
  | .io path fault => "IO error on " ++ path ++ ": " ++ fault.text
  | .config field message => "Invalid configuration for " ++ field ++ ": " ++ message
  | .internal message => "Internal error: " ++ message

/-- The store could not be reached. -/
def isStoreUnavailable : Error → Bool
  | .storeUnavailable .. => true
  | _ => false

/-- The cause may pass by itself. -/
def isRetryable : Error → Bool
  | .storeUnavailable .. | .commandTimeout .. | .commandFailed .. => true
  | _ => false

/-- The fault of the system below an error. -/
def fault? : Error → Option IoFault
  | .commandSpawn _ fault | .io _ fault => some fault
  | _ => none

end Error

end Converge
