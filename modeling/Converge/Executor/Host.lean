import Converge.Audit.Entry
import Converge.Command

/-!
# The host that actions run on

`Host σ` is what an executor needs of a host, for a host whose state is `σ`: running a command,
replacing a file, removing a file. Nothing else is assumed, so whatever holds of the executor holds
for every host.

`Ran σ α` is the end of a piece of work: its value, the host after it, and the `Deed`s in order —
the commands that were run and the audit entries that were made.
-/

namespace Converge

/-- What an executor needs of a host. -/
structure Host (σ : Type) where
  /-- Runs a command to its end. -/
  run : CommandSpec → σ → Except Error ExecResult × σ
  /-- Puts a file with the given content in place of what was at the path. -/
  writeFile : String → String → σ → Except IoFault Unit × σ
  /-- Removes the file at the path. -/
  removeFile : String → σ → Except IoFault Unit × σ

/-- What the outside can see of a piece of work. -/
inductive Deed where
  /-- A command was given to the host. -/
  | call (command : CommandSpec)
  /-- An audit entry was made. -/
  | audit (entry : Audit.Entry)

/-- The command of a deed. -/
def Deed.command? : Deed → Option CommandSpec
  | .call c => some c
  | .audit _ => none

/-- The audit entry of a deed. -/
def Deed.entry? : Deed → Option Audit.Entry
  | .call _ => none
  | .audit e => some e

/-- The end of a piece of work. -/
structure Ran (σ α : Type) where
  value : α
  host : σ
  deeds : List Deed

namespace Ran

variable {σ α β : Type}

/-- The commands that were run, in order. -/
def commands (r : Ran σ α) : List CommandSpec := r.deeds.filterMap Deed.command?

/-- The audit entries that were made, in order. -/
def entries (r : Ran σ α) : List Audit.Entry := r.deeds.filterMap Deed.entry?

/-- Nothing was done. -/
def idle (a : α) (s : σ) : Ran σ α := ⟨a, s, []⟩

/-- Two pieces of work, one after the other. -/
def andThen (r : Ran σ α) (next : α → σ → Ran σ β) : Ran σ β :=
  let r' := next r.value r.host
  ⟨r'.value, r'.host, r.deeds ++ r'.deeds⟩

@[simp] theorem commands_idle (a : α) (s : σ) : (idle a s).commands = [] := rfl

@[simp] theorem entries_idle (a : α) (s : σ) : (idle a s).entries = [] := rfl

@[simp] theorem idle_andThen (a : α) (s : σ) (next : α → σ → Ran σ β) :
    (idle a s).andThen next = next a s := rfl

@[simp] theorem commands_andThen (r : Ran σ α) (next : α → σ → Ran σ β) :
    (r.andThen next).commands = r.commands ++ (next r.value r.host).commands :=
  List.filterMap_append

@[simp] theorem entries_andThen (r : Ran σ α) (next : α → σ → Ran σ β) :
    (r.andThen next).entries = r.entries ++ (next r.value r.host).entries :=
  List.filterMap_append

/-- A piece of work and two more are one after the other, however they are put together. -/
theorem andThen_assoc {γ : Type} (r : Ran σ α) (f : α → σ → Ran σ β) (g : β → σ → Ran σ γ) :
    (r.andThen f).andThen g = r.andThen fun a s => (f a s).andThen g := by
  simp [andThen]

end Ran

end Converge
