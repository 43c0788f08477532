import Converge.Daemon.Scene
import Converge.Proofs.Daemon.Publishing

/-!
# A host with a store beside it

In a `Site` the store stands beside the machine on which actions run: the daemon follows the store
and publishes its status rows there, and no action comes near it. Nothing is assumed of the machine.

* `Site.host`, `Site.feed`, `Site.sink`: the site as a host, as a store to follow and as a place for
  status rows;
* `publishes_store`: work on rows does nothing to the store but publish;
* `publishes_config`: so it leaves alone everything of the store but the status rows.
-/

namespace Converge

open Store (Memory SubId)

/-- A machine, and a store beside it. -/
structure Site (τ : Type) where
  machine : τ
  store : Memory

namespace Site

variable {τ α : Type}

/-- What an access to the store yields, and the site after it. -/
def onStore (s : Site τ) (r : α × Memory) : α × Site τ := (r.1, { s with store := r.2 })

/-- What an access to the machine yields, and the site after it. -/
def onMachine (s : Site τ) (r : α × τ) : α × Site τ := (r.1, { s with machine := r.2 })

/-- Actions run on the machine. -/
def host (h : Host τ) : Host (Site τ) where
  run c s := s.onMachine (h.run c s.machine)
  writeFile path content s := s.onMachine (h.writeFile path content s.machine)
  removeFile path s := s.onMachine (h.removeFile path s.machine)

/-- The store as one to follow. -/
def feed : Feed (Site τ) where
  subscribe tables s := s.onStore (s.store.subscribe tables)
  load tables s := s.onStore (s.store.load tables)
  poll sub s := s.onStore (s.store.poll sub)
  release sub s := { s with store := s.store.dropSubscription sub }

/-- The store as a place for status rows. -/
def sink : StatusSink (Site τ) where
  set id row s := s.onStore (s.store.setStatus id row)
  clear id s := s.onStore (s.store.clearStatus id)

/-- No action touches the store. -/
theorem keeps_host {γ : Type} (h : Host τ) (view : Memory → γ) :
    (host h).Keeps fun s => view s.store where
  run _ _ := rfl
  writeFile _ _ _ := rfl
  removeFile _ _ := rfl

end Site

/-! ## Publishing in the store -/

/-- What there is to publish about a row that was worked on: nothing, that there is no status row any
    more, or a status row. -/
def Registry.announcement (r : Registry) (delta : RowDelta) (ok : Bool) : Option (Option Row) :=
  match delta.new with
  | none => if ok then some none else none
  | some new => (r.status delta.id new ok).map some

/-- The store after an announcement. -/
def publishIn (r : Registry) (delta : RowDelta) (ok : Bool) (m : Memory) : Memory :=
  match r.announcement delta ok with
  | none => m
  | some none => (m.clearStatus delta.id).2
  | some (some row) => (m.setStatus delta.id row).2

section Publishing

variable {τ : Type} {d : Daemon (Site τ)} {h : Host τ}

theorem publish_store (hsink : d.sink = some Site.sink) (delta : RowDelta) (ok : Bool)
    (s : Site τ) : (d.publish delta ok s).store = publishIn d.registry delta ok s.store := by
  unfold Daemon.publish publishIn Registry.announcement
  rw [hsink]
  cases delta.new with
  | none => cases ok <;> rfl
  | some new =>
    cases hstatus : d.registry.status delta.id new ok with
    | none => simp [hstatus]
    | some row =>
      simp only [hstatus]
      rfl

/-- **Work on rows does nothing to the store but publish.** -/
theorem publishes_store (hhost : d.executor.host = Site.host h) (hsink : d.sink = some Site.sink) :
    Publishes d Site.store (publishIn d.registry) where
  host := by
    rw [hhost]
    exact Site.keeps_host h id
  publish := publish_store hsink

/-- The store without its status rows. -/
def Store.Memory.config (m : Memory) : Memory := { m with status := .empty }

theorem config_publishIn (r : Registry) (delta : RowDelta) (ok : Bool) (m : Memory) :
    (publishIn r delta ok m).config = m.config := by
  unfold publishIn
  split
  · rfl
  · unfold Memory.clearStatus
    split <;> rfl
  · unfold Memory.setStatus
    split <;> rfl

/-- Work on rows leaves alone everything of the store but the status rows. -/
theorem publishes_config (hhost : d.executor.host = Site.host h)
    (hsink : d.sink = none ∨ d.sink = some Site.sink) :
    Publishes d (fun s => s.store.config) fun _ _ m => m where
  host := by
    rw [hhost]
    exact Site.keeps_host h Memory.config
  publish delta ok s := by
    rcases hsink with hsink | hsink
    · unfold Daemon.publish
      rw [hsink]
    · show (d.publish delta ok s).store.config = s.store.config
      rw [publish_store hsink, config_publishIn]

end Publishing

end Converge
