import Converge.Files.Tree

/-!
# Media

What lies under a file tree has faults of its own: it is full, it is worn out, or it takes no more
changes. A call that the tree would allow fails all the same then.

* `Medium` says which calls fail and with what; the answer may depend on the tree and on the call;
* `Medium.makeDir`, `Medium.write`, `Medium.rename`, `Medium.unlink` are the operations of `Tree` on a
  medium. Only `write` can have done something before it fails: the file is made, or emptied, before
  the first byte is written;
* `Medium.sound` has no faults of its own.
-/

namespace Converge.Files

/-- How the writing of a file goes wrong. -/
inductive WriteFault where
  /-- The file is neither made nor emptied. -/
  | unopened (fault : IoFault)
  /-- The writing breaks off behind so many bytes, which stay in the file. -/
  | cut (kept : Nat) (fault : IoFault)
deriving DecidableEq, Repr

/-- The faults that a medium adds to those of the tree. -/
structure Medium where
  makeDirFault : Tree → String → Option IoFault
  writeFault : Tree → String → List UInt8 → Option WriteFault
  renameFault : Tree → String → String → Option IoFault
  unlinkFault : Tree → String → Option IoFault

namespace Medium

/-- A medium without faults of its own. -/
def sound : Medium where
  makeDirFault _ _ := none
  writeFault _ _ _ := none
  renameFault _ _ _ := none
  unlinkFault _ _ := none

variable (m : Medium)

/-- Makes a directory. -/
def makeDir (t : Tree) (path : String) : Except IoFault Tree :=
  match m.makeDirFault t path with
  | some fault => .error fault
  | none => t.makeDir path

/-- Makes or overwrites a file. A writing that breaks off leaves its first bytes behind. -/
def write (t : Tree) (path : String) (content : List UInt8) : Tree × Except IoFault Unit :=
  match m.writeFault t path content with
  | some (.unopened fault) => (t, .error fault)
  | some (.cut kept fault) =>
    match t.write path (content.take kept) with
    | .error unopened => (t, .error unopened)
    | .ok t => (t, .error fault)
  | none =>
    match t.write path content with
    | .error unopened => (t, .error unopened)
    | .ok t => (t, .ok ())

/-- Moves a file to another path, in place of a file that is there. -/
def rename (t : Tree) (source target : String) : Except IoFault Tree :=
  match m.renameFault t source target with
  | some fault => .error fault
  | none => t.rename source target

/-- Removes a file. -/
def unlink (t : Tree) (path : String) : Except IoFault Tree :=
  match m.unlinkFault t path with
  | some fault => .error fault
  | none => t.unlink path

theorem makeDir_eq_ok {t t' : Tree} {path : String} (h : m.makeDir t path = .ok t') :
    t.makeDir path = .ok t' := by
  unfold makeDir at h
  split at h
  · cases h
  · exact h

theorem rename_eq_ok {t t' : Tree} {source target : String} (h : m.rename t source target = .ok t') :
    t.rename source target = .ok t' := by
  unfold rename at h
  split at h
  · cases h
  · exact h

theorem unlink_eq_ok {t t' : Tree} {path : String} (h : m.unlink t path = .ok t') :
    t.unlink path = .ok t' := by
  unfold unlink at h
  split at h
  · cases h
  · exact h

/-- A removal that the tree allows fails only if the medium has a fault for it. -/
theorem unlink_eq_error {t t' : Tree} {path : String} {fault : IoFault}
    (hfree : t.unlink path = .ok t') (h : m.unlink t path = .error fault) :
    m.unlinkFault t path = some fault := by
  unfold unlink at h
  split at h
  · rename_i hfault
    cases h
    exact hfault
  · rw [hfree] at h
    cases h

/-- All that the writing of a file can come to. -/
inductive Writes (t : Tree) (path : String) (content : List UInt8) :
    Tree × Except IoFault Unit → Prop where
  | unopened (fault : IoFault) : Writes t path content (t, .error fault)
  | cut {t' : Tree} {kept : Nat} {fault : IoFault}
    (hcut : m.writeFault t path content = some (.cut kept fault))
    (hopened : t.write path (content.take kept) = .ok t') : Writes t path content (t', .error fault)
  | whole {t' : Tree} (hopened : t.write path content = .ok t') : Writes t path content (t', .ok ())

theorem writes (t : Tree) (path : String) (content : List UInt8) :
    m.Writes t path content (m.write t path content) := by
  unfold write
  split
  · exact .unopened _
  · rename_i kept fault hcut
    cases hopened : t.write path (content.take kept) with
    | error unopened => exact .unopened unopened
    | ok t' => exact .cut hcut hopened
  · cases hopened : t.write path content with
    | error unopened => exact .unopened unopened
    | ok t' => exact .whole hopened

end Medium

end Converge.Files
