import Converge.Programs.Tools

/-!
# Finding programs

A word with a slash is the path of a program; any other word is looked up in the usual directories.
The programs are those of `tool?`, the shell and `env`; they lie in `/bin` and in `/usr/bin`.
Whatever else is at a path cannot be run.
-/

namespace Converge.Programs

/-- The names of the shell. -/
def shellNames : List String := ["sh", "dash"]

/-- There is a program of this name. -/
def known (name : String) : Bool :=
  (tool? name).isSome || shellNames.contains name || name == "env"

/-- The directories with programs. -/
def programDirs : List String := ["/bin", "/usr/bin"]

/-- The name of the program at a path. -/
def programAt (files : Files.Tree) (path : String) : Except IoFault String :=
  match files.walk path with
  | .error fault => .error fault
  | .ok ⟨_, .dots _, _⟩ => .error .accessDenied
  | .ok ⟨dir, .name name, trailing⟩ =>
    if programDirs.contains dir && known name then
      if trailing then .error .notDirectory else .ok name
    else
      match files.node? (Files.Tree.keyIn dir name) with
      | none => .error .noEntry
      | some .dir => .error .accessDenied
      | some (.file _) => .error (if trailing then .notDirectory else .accessDenied)

/-- **The name of the program that a word stands for.** -/
def find (files : Files.Tree) (word : String) : Except IoFault String :=
  if word.toList.contains '/' then programAt files word
  else if Files.Tree.maxName < word.utf8ByteSize then .error .nameTooLong
  else if known word then .ok word
  else if word == "." || word == ".." then .error .accessDenied
  else .error .noEntry

end Converge.Programs
