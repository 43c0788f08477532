import Converge.Daemon.Pass
import Converge.Store.Memory

/-!
# A daemon in its surroundings

A `Scene` is what there is at one moment: the stage of the daemon's life, what it knows, its host
and the time. `Feed` is what a daemon needs of a store. Everything that the outside can see is noted
in order: stages, commands, audit entries and accesses to the store.

* `Scene.pass` and `Scene.meet` are the full pass and the work on an event. **Only the work on a
  row that differs from the applied one is announced**, as a stage of its own;
* a full pass does not change the stage.
-/

namespace Converge

open Store (SubId Polled)

/-! ## 1. Stores -/

/-- What a daemon needs of a store, for a store inside a state `σ`. -/
structure Feed (σ : Type) where
  /-- Opens a subscription to the changes of tables. -/
  subscribe : List String → σ → Except Error SubId × σ
  /-- Reads every row of tables. -/
  load : List String → σ → Except Error Snapshot × σ
  /-- What a subscription yields at once, or `none` if it has to wait. -/
  poll : SubId → σ → Option Polled × σ
  /-- Gives a subscription back. -/
  release : SubId → σ → σ

/-- The accesses to a store that are noted. -/
inductive StoreAccess where
  | subscribe
  | load
deriving DecidableEq, Repr

/-! ## 2. What can be seen -/

/-- Something that the outside can see of a daemon. -/
inductive Sight where
  /-- The daemon entered a stage of its life. -/
  | stage (life : LifeState)
  /-- A command or an audit entry, with the stage and the moment. -/
  | deed (d : Deed) (life : LifeState) (moment : Duration)
  /-- An access to the store, with the error if it failed, and the moment. -/
  | access (a : StoreAccess) (failure : Option Error) (moment : Duration)

/-- The stage that was entered. -/
def Sight.stage? : Sight → Option LifeState
  | .stage life => some life
  | _ => none

/-- A daemon in its surroundings. -/
structure Scene (σ : Type) where
  life : LifeState
  known : Knowledge
  host : σ
  now : Duration
  /-- What could be seen so far, oldest first. -/
  seen : List Sight

namespace Scene

variable {σ α : Type}

/-- The beginning. -/
def start (d : Daemon σ) (s : σ) : Scene σ := ⟨.init, d.fresh, s, .zero, []⟩

def see (sc : Scene σ) (sights : List Sight) : Scene σ := { sc with seen := sc.seen ++ sights }

/-- Enters a stage. -/
def enter (sc : Scene σ) (life : LifeState) : Scene σ :=
  { sc with life }.see [.stage life]

/-- Makes an audit entry. -/
def audit (sc : Scene σ) (e : Audit.Entry) : Scene σ := sc.see [.deed (.audit e) sc.life sc.now]

/-- Takes over the host and the deeds of a piece of work. -/
def after (sc : Scene σ) (r : Ran σ α) : Scene σ :=
  { sc with host := r.host }.see (r.deeds.map fun d => .deed d sc.life sc.now)

/-! ## 3. Accesses to the store -/

/-- The error of an outcome. -/
def failure? : Except Error α → Option Error
  | .ok _ => none
  | .error e => some e

/-- Notes an access and its outcome. -/
def accessed (sc : Scene σ) (a : StoreAccess) (r : Except Error α) (s : σ) : Scene σ :=
  { sc with host := s }.see [.access a (failure? r) sc.now]

/-- Opens a subscription. -/
def subscribe (sc : Scene σ) (feed : Feed σ) (tables : List String) :
    Except Error SubId × Scene σ :=
  let (r, s) := feed.subscribe tables sc.host
  (r, sc.accessed .subscribe r s)

/-- Reads every row. -/
def load (sc : Scene σ) (feed : Feed σ) (tables : List String) :
    Except Error Snapshot × Scene σ :=
  let (r, s) := feed.load tables sc.host
  (r, sc.accessed .load r s)

/-- Gives a subscription back. -/
def release (sc : Scene σ) (feed : Feed σ) (sub : SubId) : Scene σ :=
  { sc with host := feed.release sub sc.host }

/-! ## 4. Work -/

/-- **A full pass.** -/
def pass (sc : Scene σ) (d : Daemon σ) (snapshot : Snapshot) : PassSummary × Scene σ :=
  let r := d.fullPass snapshot sc.known sc.host
  (r.value.2, { sc.after r with known := r.value.1 })

/-- **The work on an event.** -/
def meet (sc : Scene σ) (d : Daemon σ) (e : ChangeEvent) : EventOutcome × Scene σ :=
  let busy := Daemon.busyWith? sc.known e
  let sc :=
    match busy with
    | some id => sc.enter (.reconciling id)
    | none => sc
  let r := d.reconcile e sc.known sc.host
  let sc := { sc.after r with known := r.value.1 }
  (r.value.2, if busy.isSome then sc.enter .steady else sc)

/-- Reads the store again and makes a full pass. -/
def resync (sc : Scene σ) (d : Daemon σ) (feed : Feed σ) :
    Except Error PassSummary × Scene σ :=
  match sc.load feed d.tables with
  | (.error e, sc) => (.error e, sc)
  | (.ok snapshot, sc) =>
    let (summary, sc) := sc.pass d snapshot
    (.ok summary, sc)

end Scene

end Converge
