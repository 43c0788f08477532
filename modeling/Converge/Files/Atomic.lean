import Converge.Files.Medium

/-!
# Replacing a file as a whole

`writeAtomic` never lets a reader see half a file: it writes the content into a scratch file beside
the target and moves it into place. The directories above the target are made if they are missing.
If the move fails, the scratch file is removed, as far as the medium lets it be; a scratch file that
could not be written to its end stays where it is.

The scratch file of `f` is `.f.tmp` in the same directory.
-/

namespace Converge.Files

/-- The directory part of a path: the path above it, or a point if there is none. -/
def directoryOf (path : String) : String := (Path.parent? path).getD "."

/-- The path of the scratch file beside a file. -/
def scratchPath (path name : String) : String :=
  Path.join (directoryOf path) ("." ++ name ++ ".tmp")

/-- The directory at a path and those above it. An answer "missing" leads upwards; every other
    fault is as good as success if the directory is there. `fuel` bounds the way up. -/
def makeDirs (m : Medium) (fuel : Nat) (t : Tree) (path : String) : Tree × Except IoFault Unit :=
  if path.isEmpty then (t, .ok ())
  else
    match m.makeDir t path with
    | .ok t => (t, .ok ())
    | .error fault =>
      if fault.isMissing then
        match fuel, Path.parent? path with
        | fuel + 1, some above =>
          match makeDirs m fuel t above with
          | (t, .error fault) => (t, .error fault)
          | (t, .ok ()) =>
            match m.makeDir t path with
            | .ok t => (t, .ok ())
            | .error fault => if t.isDir path then (t, .ok ()) else (t, .error fault)
        | _, _ => (t, .error (.named .other (some "failed to create whole tree")))
      else if t.isDir path then (t, .ok ())
      else (t, .error fault)

/-- The refusal of a path that ends in no name. -/
def noFileName : IoFault := .named .invalidInput (some "path has no file name")

/-- Puts a file with the given content in place of what was at the path. -/
def writeAtomic (m : Medium) (t : Tree) (path content : String) : Tree × Except IoFault Unit :=
  let directory := directoryOf path
  match makeDirs m directory.length t directory with
  | (t, .error fault) => (t, .error fault)
  | (t, .ok ()) =>
    match Path.fileName? path with
    | none => (t, .error noFileName)
    | some name =>
      let scratch := scratchPath path name
      match m.write t scratch (Text.encode content) with
      | (t, .error fault) => (t, .error fault)
      | (t, .ok ()) =>
        match m.rename t scratch path with
        | .ok t => (t, .ok ())
        | .error fault =>
          -- a fault of the removal is not told
          match m.unlink t scratch with
          | .ok t => (t, .error fault)
          | .error _ => (t, .error fault)

/-- Removes the file at the path. -/
def remove (m : Medium) (t : Tree) (path : String) : Tree × Except IoFault Unit :=
  match m.unlink t path with
  | .ok t => (t, .ok ())
  | .error fault => (t, .error fault)

end Converge.Files
