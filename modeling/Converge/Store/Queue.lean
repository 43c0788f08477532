import Converge.Event

/-!
# The queue of a subscription

A subscription receives what the store sends and hands it out in order. An event takes the place
of a pending event of the same key: the old one is dropped and the new one goes to the end. A
notification that could not be read stays in its place.

* `push` adds an item; nothing is added to a queue that is broken off;
* `next` hands out the first item. A broken queue first hands out what it still holds, and then
  says that the store is gone.
-/

namespace Converge.Store

/-- What can be pending. -/
inductive Item where
  | event (e : ChangeEvent)
  /-- A notification that could not be read. -/
  | malformed (message : String)
deriving DecidableEq

/-- The item is an event of the key. -/
def Item.isEventOf (id : RowKey) : Item → Bool
  | .event e => e.id == id
  | .malformed _ => false

/-- The event of an item. -/
def Item.event? : Item → Option ChangeEvent
  | .event e => some e
  | .malformed _ => none

/-- A subscription's pending items. -/
structure Queue where
  /-- The tables whose changes are received. -/
  tables : List String
  items : List Item
  /-- The connection was lost. -/
  broken : Bool
  /-- The subscriber wants nothing more. -/
  cancelled : Bool
deriving DecidableEq

/-- What polling a queue yields at once. -/
inductive Polled where
  /-- Nothing is there, and nothing will be said. -/
  | nothing
  /-- The next event. -/
  | event (e : ChangeEvent)
  /-- An error: an unreadable notification, or the loss of the store. -/
  | failed (e : Error)
deriving DecidableEq

namespace Queue

/-- A new subscription. -/
def opened (tables : List String) : Queue := ⟨tables, [], false, false⟩

/-- The items after one more. -/
def pushItem (items : List Item) : Item → List Item
  | .event e => items.filter (fun i => !i.isEventOf e.id) ++ [.event e]
  | item => items ++ [item]

/-- The queue after one more item. -/
def push (q : Queue) (item : Item) : Queue :=
  if q.broken then q else { q with items := pushItem q.items item }

/-- The queue after an event of the store, which it receives only for its own tables. -/
def publish (q : Queue) (e : ChangeEvent) : Queue :=
  if q.tables.contains e.id.table then q.push (.event e) else q

/-- The connection is lost. -/
def breakOff (q : Queue) : Queue := { q with broken := true }

/-- The subscriber wants nothing more. -/
def cancel (q : Queue) : Queue := { q with cancelled := true }

/-- The error of a lost connection. -/
def lost (operation : String) : Error :=
  .storeUnavailable operation "memory store disconnected"

/-- What polling yields at once, or `none` if it has to wait. -/
def next (q : Queue) : Option Polled × Queue :=
  if q.cancelled then (some .nothing, q)
  else
    match q.items with
    | .event e :: rest => (some (.event e), { q with items := rest })
    | .malformed m :: rest =>
      (some (.failed (.malformedEvent "memory-store" m)), { q with items := rest })
    | [] => if q.broken then (some (.failed (lost "poll")), q) else (none, q)

/-! ## Pending events -/

/-- The pending events, oldest first. -/
def pending (q : Queue) : List ChangeEvent := q.items.filterMap Item.event?

@[simp] theorem tables_push (q : Queue) (item : Item) : (q.push item).tables = q.tables := by
  unfold push
  split <;> rfl

@[simp] theorem broken_push (q : Queue) (item : Item) : (q.push item).broken = q.broken := by
  unfold push
  split <;> rfl

@[simp] theorem cancelled_push (q : Queue) (item : Item) :
    (q.push item).cancelled = q.cancelled := by
  unfold push
  split <;> rfl

theorem event?_filter_isEventOf (id : RowKey) (items : List Item) :
    (items.filter fun i => !i.isEventOf id).filterMap Item.event? =
      (items.filterMap Item.event?).filter fun e => e.id ≠ id := by
  induction items with
  | nil => rfl
  | cons i rest ih =>
    cases i with
    | malformed m =>
      rw [List.filter_cons_of_pos rfl, List.filterMap_cons_none rfl, List.filterMap_cons_none rfl, ih]
    | event e =>
      have hev : (Item.event e).event? = some e := rfl
      rw [List.filterMap_cons_some hev]
      by_cases h : e.id = id
      · rw [List.filter_cons_of_neg (by simp [Item.isEventOf, h]),
          List.filter_cons_of_neg (by simp [h]), ih]
      · rw [List.filter_cons_of_pos (by simp [Item.isEventOf, h]), List.filterMap_cons_some hev,
          List.filter_cons_of_pos (by simp [h]), ih]

/-- **An event takes the place of the pending events of its key.** -/
theorem pending_push_event {q : Queue} (h : q.broken = false) (e : ChangeEvent) :
    (q.push (.event e)).pending = q.pending.filter (fun p => p.id ≠ e.id) ++ [e] := by
  unfold push pending
  rw [if_neg (by simp [h]), pushItem, List.filterMap_append, event?_filter_isEventOf]
  rfl

@[simp] theorem pending_push_malformed (q : Queue) (message : String) :
    (q.push (.malformed message)).pending = q.pending := by
  unfold push pending
  split
  · rfl
  · simp [pushItem, Item.event?]

/-- A second notice of the same event changes nothing. -/
theorem push_event_push_event (q : Queue) (e : ChangeEvent) :
    (q.push (.event e)).push (.event e) = q.push (.event e) := by
  unfold push
  by_cases h : q.broken <;> simp [h, pushItem, Item.isEventOf, List.filter_filter]

@[simp] theorem tables_publish (q : Queue) (e : ChangeEvent) :
    (q.publish e).tables = q.tables := by
  unfold publish
  split <;> simp

@[simp] theorem broken_publish (q : Queue) (e : ChangeEvent) :
    (q.publish e).broken = q.broken := by
  unfold publish
  split <;> simp

@[simp] theorem cancelled_publish (q : Queue) (e : ChangeEvent) :
    (q.publish e).cancelled = q.cancelled := by
  unfold publish
  split <;> simp

theorem publish_publish (q : Queue) (e : ChangeEvent) :
    (q.publish e).publish e = q.publish e := by
  unfold publish
  by_cases h : q.tables.contains e.id.table
  · rw [if_pos h, tables_push, if_pos h, push_event_push_event]
  · rw [if_neg h, if_neg h]

/-- **A poll of a wanted queue yields the first pending event, or it leaves all of them pending.** -/
theorem next_cases {q : Queue} (h : q.cancelled = false) :
    (∃ e rest, q.next = (some (.event e), { q with items := rest }) ∧
      q.pending = e :: pending { q with items := rest }) ∨
    (∃ answer rest, q.next = (answer, { q with items := rest }) ∧
      (∀ e, answer ≠ some (.event e)) ∧ q.pending = pending { q with items := rest }) := by
  obtain ⟨tables, items, broken, cancelled⟩ := q
  cases h
  match items, broken with
  | .event e :: rest, _ => exact .inl ⟨e, rest, rfl, rfl⟩
  | .malformed m :: rest, _ => exact .inr ⟨_, rest, rfl, nofun, rfl⟩
  | [], true => exact .inr ⟨_, [], rfl, nofun, rfl⟩
  | [], false => exact .inr ⟨none, [], rfl, nofun, rfl⟩

end Queue

end Converge.Store
