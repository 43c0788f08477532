import Mathlib.Data.List.Induction
import Mathlib.Data.List.Nodup
import Converge.Store.Queue

/-!
# What a subscription hands out

Items are sent to a subscription and polls hand them out, in any order. An event that overtakes one of
its key takes its place, so what was handed out and what waits is not all that was sent; it is all but
the events that were overtaken while they waited.

* `Mailbox` is a subscription with what its polls have handed out;
* `Ledger` keeps the number of each item beside it, so that an item can be told from its likes.
  `shows_after`: it is the same mailbox;
* `LeftOut`: the item of a number was overtaken while it waited;
* **`told_after`**: what was handed out and what waits are the items that were not left out, in the
  order in which they were sent;
* **`hands_out_in_order`**: what follows for each key and for the notifications that could not be read.
-/

namespace Converge.Store

/-! ## 1. A subscription that is sent items and polled -/

/-- The new item takes the place of the old one if that is still waiting. -/
def Item.overtakes : Item → Item → Bool
  | .event e, old => old.isEventOf e.id
  | .malformed _, _ => false

/-- The item is a notification that could not be read. -/
def Item.isMalformed : Item → Bool
  | .event _ => false
  | .malformed _ => true

/-- The item that a poll has handed out. -/
def Polled.item? : Polled → Option Item
  | .event e => some (.event e)
  | .failed (.malformedEvent _ message) => some (.malformed message)
  | _ => none

/-- What happens to a subscription. -/
inductive Handling where
  /-- It is sent an item. -/
  | send (item : Item)
  | poll
deriving DecidableEq

/-- The item that is sent. -/
def Handling.sent? : Handling → Option Item
  | .send item => some item
  | .poll => none

/-- The items that are sent, oldest first. -/
def sentBy (hs : List Handling) : List Item := hs.filterMap Handling.sent?

/-- A subscription and what its polls have handed out, oldest first. -/
structure Mailbox where
  queue : Queue
  handed : List Item

namespace Mailbox

/-- A subscription that was just opened. -/
def opened (tables : List String) : Mailbox := ⟨.opened tables, []⟩

def handle (b : Mailbox) : Handling → Mailbox
  | .send item => { b with queue := b.queue.push item }
  | .poll =>
    let (answer, queue) := b.queue.next
    ⟨queue, b.handed ++ (answer.bind Polled.item?).toList⟩

/-- A subscription when all this has happened to it, in order. -/
def after (tables : List String) (hs : List Handling) : Mailbox := hs.foldl handle (opened tables)

@[simp] theorem after_concat (tables : List String) (hs : List Handling) (x : Handling) :
    after tables (hs ++ [x]) = (after tables hs).handle x := List.foldl_concat ..

end Mailbox

theorem Queue.pushItem_eq (items : List Item) (item : Item) :
    pushItem items item = items.filter (fun old => !item.overtakes old) ++ [item] := by
  cases item with
  | event e => rfl
  | malformed message =>
    have hnone : items.filter (fun old => !(Item.malformed message).overtakes old) = items :=
      List.filter_eq_self.mpr fun _ _ => rfl
    rw [hnone]
    rfl

/-- An open subscription takes the item in. -/
theorem Queue.push_of_unbroken {q : Queue} (h : q.broken = false) (item : Item) :
    q.push item = { q with items := pushItem q.items item } := if_neg (by simp [h])

/-- **A poll hands out the first item.** -/
theorem Mailbox.handle_poll {b : Mailbox} (hlive : b.queue.broken = false)
    (hwanted : b.queue.cancelled = false) :
    b.handle .poll =
      ⟨{ b.queue with items := b.queue.items.tail }, b.handed ++ b.queue.items.head?.toList⟩ := by
  obtain ⟨⟨tables, items, broken, cancelled⟩, handed⟩ := b
  obtain rfl : broken = false := hlive
  obtain rfl : cancelled = false := hwanted
  cases items with
  | nil => rfl
  | cons item rest => cases item <;> rfl

/-! ## 2. Items and their numbers -/

/-- A mailbox in which each item has its number: how many were sent before it. -/
structure Ledger where
  sent : List Item
  waiting : List (Item × Nat)
  handed : List (Item × Nat)

namespace Ledger

def handle (l : Ledger) : Handling → Ledger
  | .send item =>
    { l with
      sent := l.sent ++ [item]
      waiting := l.waiting.filter (fun t => !item.overtakes t.1) ++ [(item, l.sent.length)] }
  | .poll =>
    { l with
      waiting := l.waiting.tail
      handed := l.handed ++ l.waiting.head?.toList }

/-- The ledger when all this has happened, in order. -/
def after (hs : List Handling) : Ledger := hs.foldl handle ⟨[], [], []⟩

/-- What was handed out and what waits. -/
def kept (l : Ledger) : List (Item × Nat) := l.handed ++ l.waiting

@[simp] theorem after_concat (hs : List Handling) (x : Handling) :
    after (hs ++ [x]) = (after hs).handle x := List.foldl_concat ..

@[simp] theorem sent_after (hs : List Handling) : (after hs).sent = sentBy hs := by
  induction hs using List.reverseRecOn with
  | nil => rfl
  | append_singleton hs x ih =>
    rw [after_concat, sentBy, List.filterMap_append, ← sentBy, ← ih]
    cases x with
    | send item => rfl
    | poll => exact (List.append_nil _).symm

@[simp] theorem kept_poll (l : Ledger) : (l.handle .poll).kept = l.kept := by
  show (l.handed ++ l.waiting.head?.toList) ++ l.waiting.tail = l.handed ++ l.waiting
  cases l.waiting with
  | nil => simp
  | cons t rest => simp

theorem kept_send_sublist (l : Ledger) (item : Item) :
    (l.handle (.send item)).kept.Sublist (l.kept ++ [(item, l.sent.length)]) := by
  show (l.handed ++ (l.waiting.filter _ ++ [_])).Sublist ((l.handed ++ l.waiting) ++ [_])
  rw [List.append_assoc]
  exact (List.filter_sublist.append_right _).append_left _

/-- The ledger is that of the mailbox, whose subscription is open and wanted. -/
structure Shows (l : Ledger) (b : Mailbox) : Prop where
  live : b.queue.broken = false
  wanted : b.queue.cancelled = false
  items : l.waiting.map (·.1) = b.queue.items
  handed : l.handed.map (·.1) = b.handed

theorem Shows.handle {l : Ledger} {b : Mailbox} (h : l.Shows b) (x : Handling) :
    (l.handle x).Shows (b.handle x) := by
  cases x with
  | send item =>
    refine ⟨?_, ?_, ?_, h.handed⟩
    · exact (Queue.broken_push _ _).trans h.live
    · exact (Queue.cancelled_push _ _).trans h.wanted
    · show (l.waiting.filter _ ++ _).map _ = (b.queue.push item).items
      rw [Queue.push_of_unbroken h.live, Queue.pushItem_eq, ← h.items, List.filter_map,
        List.map_append]
      rfl
  | poll =>
    rw [Mailbox.handle_poll h.live h.wanted]
    refine ⟨h.live, h.wanted, ?_, ?_⟩
    · show l.waiting.tail.map _ = b.queue.items.tail
      rw [← h.items, List.map_tail]
    · show (l.handed ++ l.waiting.head?.toList).map _ = b.handed ++ b.queue.items.head?.toList
      rw [← h.items, ← h.handed, List.map_append, List.head?_map]
      cases l.waiting.head? <;> rfl

/-- **The ledger shows the mailbox**, whatever happens. -/
theorem shows_after (tables : List String) (hs : List Handling) :
    (after hs).Shows (.after tables hs) := by
  induction hs using List.reverseRecOn with
  | nil => exact ⟨rfl, rfl, rfl, rfl⟩
  | append_singleton hs x ih =>
    rw [after_concat, Mailbox.after_concat]
    exact ih.handle x

/-- **The number of an item is its place among those that were sent.** -/
theorem getElem?_of_mem_kept (hs : List Handling) {t : Item × Nat} (ht : t ∈ (after hs).kept) :
    (sentBy hs)[t.2]? = some t.1 := by
  rw [← sent_after]
  induction hs using List.reverseRecOn with
  | nil => cases ht
  | append_singleton hs x ih =>
    rw [after_concat] at ht ⊢
    cases x with
    | poll =>
      rw [kept_poll] at ht
      exact ih ht
    | send item =>
      rcases List.mem_append.mp ((kept_send_sublist _ item).subset ht) with hold | hnew
      · have hold := ih hold
        exact (List.getElem?_append_left (List.getElem?_eq_some_iff.mp hold).1).trans hold
      · obtain rfl := List.mem_singleton.mp hnew
        exact List.getElem?_concat_length

/-- Items are handed out and wait in the order of their numbers. -/
theorem numbers_sorted (hs : List Handling) :
    ((after hs).kept.map (·.2)).Pairwise (· < ·) := by
  induction hs using List.reverseRecOn with
  | nil => exact .nil
  | append_singleton hs x ih =>
    rw [after_concat]
    cases x with
    | poll =>
      rw [kept_poll]
      exact ih
    | send item =>
      refine .sublist ((kept_send_sublist _ item).map _) ?_
      rw [List.map_append]
      refine List.pairwise_append.mpr ⟨ih, List.pairwise_singleton _ _, fun n hn m hm => ?_⟩
      obtain rfl := List.mem_singleton.mp hm
      obtain ⟨t, ht, rfl⟩ := List.mem_map.mp hn
      rw [sent_after]
      exact (List.getElem?_eq_some_iff.mp (getElem?_of_mem_kept hs ht)).1

end Ledger

/-! ## 3. Items that were left out -/

/-- The item of a number waits, and the new one overtakes it. -/
def Overtakes (hs : List Handling) (new : Item) (n : Nat) : Prop :=
  ∃ old, (old, n) ∈ (Ledger.after hs).waiting ∧ new.overtakes old = true

/-- The item of a number was left out: while it waited, one was sent that overtakes it. -/
def LeftOut (hs : List Handling) (n : Nat) : Prop :=
  ∃ before new later, hs = before ++ .send new :: later ∧ Overtakes before new n

theorem leftOut_concat {hs : List Handling} {x : Handling} {n : Nat} :
    LeftOut (hs ++ [x]) n ↔ LeftOut hs n ∨ ∃ new, x = .send new ∧ Overtakes hs new n := by
  constructor
  · rintro ⟨before, new, later, hsplit, hover⟩
    rcases List.eq_nil_or_concat' later with rfl | ⟨later, last, rfl⟩
    · obtain ⟨rfl, hx⟩ := List.append_inj' hsplit rfl
      exact .inr ⟨new, List.singleton_inj.mp hx, hover⟩
    · have hsplit' : hs ++ [x] = (before ++ .send new :: later) ++ [last] := by
        rw [hsplit, List.append_assoc]
        rfl
      exact .inl ⟨before, new, later, (List.append_inj' hsplit' rfl).1, hover⟩
  · rintro (⟨before, new, later, rfl, hover⟩ | ⟨new, rfl, hover⟩)
    · exact ⟨before, new, later ++ [x], by rw [List.append_assoc]; rfl, hover⟩
    · exact ⟨hs, new, [], rfl, hover⟩

/-- What overtook an item was sent later. -/
theorem LeftOut.exists_later {hs : List Handling} {n : Nat} (h : LeftOut hs n) :
    ∃ old new m, n < m ∧ (sentBy hs)[n]? = some old ∧ (sentBy hs)[m]? = some new ∧
      new.overtakes old = true := by
  obtain ⟨before, new, later, rfl, old, hwaits, hover⟩ := h
  have hold := Ledger.getElem?_of_mem_kept before (List.mem_append_right _ hwaits)
  have hn := (List.getElem?_eq_some_iff.mp hold).1
  have hsent : sentBy (before ++ .send new :: later) = sentBy before ++ new :: sentBy later :=
    List.filterMap_append
  refine ⟨old, new, (sentBy before).length, hn, ?_, ?_, hover⟩
  · rw [hsent, List.getElem?_append_left hn]
    exact hold
  · rw [hsent]
    simp

/-- What is sent overtakes those of the waiting items that its kind takes the place of. -/
theorem overtakes_iff {hs : List Handling} {new : Item} {t : Item × Nat}
    (ht : t ∈ (Ledger.after hs).kept) :
    Overtakes hs new t.2 ↔ t ∈ (Ledger.after hs).waiting ∧ new.overtakes t.1 = true := by
  constructor
  · rintro ⟨old, hwaits, hover⟩
    have hkept := Ledger.getElem?_of_mem_kept hs (List.mem_append_right _ hwaits)
    obtain rfl : t.1 = old :=
      Option.some.inj ((Ledger.getElem?_of_mem_kept hs ht).symm.trans hkept)
    exact ⟨hwaits, hover⟩
  · rintro ⟨hwaits, hover⟩
    exact ⟨t.1, hwaits, hover⟩

/-- What was handed out does not wait. -/
theorem not_mem_waiting_of_mem_handed {hs : List Handling} {t : Item × Nat}
    (ht : t ∈ (Ledger.after hs).handed) : t ∉ (Ledger.after hs).waiting := fun hwaits => by
  have hsorted := Ledger.numbers_sorted hs
  rw [Ledger.kept, List.map_append, List.pairwise_append] at hsorted
  exact Nat.lt_irrefl t.2 (hsorted.2.2 _ (List.mem_map_of_mem ht) _ (List.mem_map_of_mem hwaits))

open Classical in
theorem kept_send (hs : List Handling) (item : Item) :
    (Ledger.after (hs ++ [.send item])).kept =
      ((Ledger.after hs).kept.filter fun t => ¬ Overtakes hs item t.2) ++
        [(item, (sentBy hs).length)] := by
  rw [Ledger.after_concat, ← Ledger.sent_after]
  show (Ledger.after hs).handed ++ ((Ledger.after hs).waiting.filter _ ++ [_]) = _
  rw [Ledger.kept, List.filter_append, List.append_assoc]
  congr 1
  · refine (List.filter_eq_self.mpr fun t ht => decide_eq_true ?_).symm
    rw [overtakes_iff (List.mem_append_left _ ht)]
    exact fun hover => not_mem_waiting_of_mem_handed ht hover.1
  · congr 1
    refine List.filter_congr fun t ht => ?_
    rw [overtakes_iff (List.mem_append_right _ ht)]
    simp [ht]

open Classical in
/-- **What was handed out and what waits are the items that were not left out**, in the order in which
    they were sent. -/
theorem told_after (hs : List Handling) :
    (Ledger.after hs).kept = (sentBy hs).zipIdx.filter fun t => ¬ LeftOut hs t.2 := by
  induction hs using List.reverseRecOn with
  | nil => rfl
  | append_singleton hs x ih =>
    cases x with
    | poll =>
      have hsent : sentBy (hs ++ [.poll]) = sentBy hs :=
        List.filterMap_append.trans (List.append_nil _)
      rw [Ledger.after_concat, Ledger.kept_poll, ih, hsent]
      refine List.filter_congr fun t _ => ?_
      simp [leftOut_concat]
    | send item =>
      have hsent : sentBy (hs ++ [.send item]) = sentBy hs ++ [item] := List.filterMap_append
      have hnew : ¬ LeftOut (hs ++ [.send item]) (sentBy hs).length := fun hleft => by
        obtain ⟨_, _, m, hlt, _, hm, _⟩ := hleft.exists_later
        have hbound := (List.getElem?_eq_some_iff.mp hm).1
        rw [hsent, List.length_append, List.length_singleton] at hbound
        omega
      rw [kept_send, ih, hsent, List.zipIdx_append, List.filter_append, List.filter_filter]
      congr 1
      · refine List.filter_congr fun t _ => ?_
        simp [leftOut_concat, not_or, Bool.and_comm]
      · simp [hnew]

/-! ## 4. Keys and unreadable notifications -/

theorem Item.overtakes_iff {new old : Item} :
    new.overtakes old = true ↔ ∃ e e', new = .event e ∧ old = .event e' ∧ e'.id = e.id := by
  cases new with
  | malformed message => exact ⟨nofun, nofun⟩
  | event e =>
    cases old with
    | malformed message => exact ⟨nofun, nofun⟩
    | event e' => simp [overtakes, isEventOf]

/-- An item that was left out is an event, and a later one has its key. -/
theorem LeftOut.exists_event {hs : List Handling} {n : Nat} (h : LeftOut hs n) :
    ∃ e e' m, n < m ∧ (sentBy hs)[n]? = some (.event e) ∧ (sentBy hs)[m]? = some (.event e') ∧
      e'.id = e.id := by
  obtain ⟨old, new, m, hlt, hold, hnew, hover⟩ := h.exists_later
  obtain ⟨e', e, rfl, rfl, hid⟩ := Item.overtakes_iff.mp hover
  exact ⟨e, e', m, hlt, hold, hnew, hid.symm⟩

/-- At most one event of each key waits. -/
theorem nodup_pending (tables : List String) (hs : List Handling) :
    ((Mailbox.after tables hs).queue.pending.map (·.id)).Nodup := by
  induction hs using List.reverseRecOn with
  | nil => exact .nil
  | append_singleton hs x ih =>
    have hshows := Ledger.shows_after tables hs
    rw [Mailbox.after_concat]
    cases x with
    | poll =>
      rw [Mailbox.handle_poll hshows.live hshows.wanted]
      exact .sublist (((List.tail_sublist _).filterMap _).map _) ih
    | send item =>
      show (((Mailbox.after tables hs).queue.push item).pending.map _).Nodup
      cases item with
      | malformed message =>
        rw [Queue.pending_push_malformed]
        exact ih
      | event e =>
        rw [Queue.pending_push_event hshows.live, List.map_append]
        refine List.nodup_append.mpr ⟨.sublist (List.filter_sublist.map _) ih,
          List.nodup_singleton _, fun id hid id' hid' he => ?_⟩
        obtain ⟨p, hp, rfl⟩ := List.mem_map.mp hid
        obtain rfl := List.mem_singleton.mp hid'
        exact of_decide_eq_true (List.mem_filter.mp hp).2 he

open Classical in
/-- What is said of a subscription that is open and wanted when all this has happened to it. -/
structure HandsOutInOrder (tables : List String) (hs : List Handling) : Prop where
  /-- What was handed out, followed by what waits, is what was sent without what was left out. -/
  told : (Mailbox.after tables hs).handed ++ (Mailbox.after tables hs).queue.items =
    ((sentBy hs).zipIdx.filter fun t => ¬ LeftOut hs t.2).map (·.1)
  /-- The ledger tells the same items, with their numbers, -/
  shows : (Ledger.after hs).Shows (.after tables hs)
  numbered : ∀ t ∈ (Ledger.after hs).kept, (sentBy hs)[t.2]? = some t.1
  /-- and they are handed out in the order in which they were sent. -/
  in_order : ((Ledger.after hs).kept.map (·.2)).Pairwise (· < ·)
  /-- A poll hands out the first item that waits. -/
  first : (Mailbox.after tables (hs ++ [.poll])).handed =
    (Mailbox.after tables hs).handed ++ (Mailbox.after tables hs).queue.items.head?.toList
  one_pending : ((Mailbox.after tables hs).queue.pending.map (·.id)).Nodup
  /-- The last event of a key was handed out or waits. -/
  last_kept : ∀ n e, (sentBy hs)[n]? = some (.event e) →
    (∀ m e', n < m → (sentBy hs)[m]? = some (.event e') → e'.id ≠ e.id) →
      (.event e, n) ∈ (Ledger.after hs).kept
  /-- Notifications that could not be read are neither lost nor doubled, and keep their order. -/
  malformed : ((Mailbox.after tables hs).handed ++ (Mailbox.after tables hs).queue.items).filter
      Item.isMalformed = (sentBy hs).filter Item.isMalformed

open Classical in
theorem told_mailbox (tables : List String) (hs : List Handling) :
    (Mailbox.after tables hs).handed ++ (Mailbox.after tables hs).queue.items =
      ((sentBy hs).zipIdx.filter fun t => ¬ LeftOut hs t.2).map (·.1) := by
  have hshows := Ledger.shows_after tables hs
  rw [← told_after, Ledger.kept, List.map_append, hshows.items, hshows.handed]

open Classical in
/-- Nothing overtakes a notification that could not be read. -/
theorem filter_isMalformed (hs : List Handling) :
    (((sentBy hs).zipIdx.filter fun t => ¬ LeftOut hs t.2).map (·.1)).filter Item.isMalformed =
      (sentBy hs).filter Item.isMalformed := by
  have hkept : ∀ t ∈ (sentBy hs).zipIdx,
      (t.1.isMalformed && decide ¬ LeftOut hs t.2) = t.1.isMalformed := fun t ht => by
    cases hitem : t.1 with
    | event e => rfl
    | malformed message =>
      refine decide_eq_true fun hleft => ?_
      obtain ⟨e, -, -, -, hevent, -⟩ := hleft.exists_event
      rw [List.mem_zipIdx_iff_getElem?.mp ht, hitem] at hevent
      cases hevent
  calc (((sentBy hs).zipIdx.filter fun t => ¬ LeftOut hs t.2).map (·.1)).filter Item.isMalformed
      = ((sentBy hs).zipIdx.filter fun t => t.1.isMalformed).map (·.1) := by
        rw [List.filter_map, List.filter_filter]
        exact congrArg _ (List.filter_congr hkept)
    _ = (sentBy hs).filter Item.isMalformed := by
        have h := List.filter_map (f := Prod.fst) (p := Item.isMalformed) (l := (sentBy hs).zipIdx)
        rw [List.zipIdx_map_fst] at h
        exact h.symm

open Classical in
/-- **What a subscription hands out**, whatever is sent to it and whenever it is polled. -/
theorem hands_out_in_order (tables : List String) (hs : List Handling) :
    HandsOutInOrder tables hs where
  told := told_mailbox tables hs
  shows := Ledger.shows_after tables hs
  numbered _ ht := Ledger.getElem?_of_mem_kept hs ht
  in_order := Ledger.numbers_sorted hs
  first := by
    have hshows := Ledger.shows_after tables hs
    rw [Mailbox.after_concat, Mailbox.handle_poll hshows.live hshows.wanted]
  one_pending := nodup_pending tables hs
  last_kept n e hsent hlast := by
    rw [told_after]
    refine List.mem_filter.mpr ⟨List.mem_zipIdx_iff_getElem?.mpr hsent, decide_eq_true fun hleft => ?_⟩
    obtain ⟨e', later, m, hlt, hn, hm, hid⟩ := hleft.exists_event
    obtain rfl := Item.event.inj (Option.some.inj (hsent.symm.trans hn))
    exact hlast m later hlt hm hid
  malformed := by rw [told_mailbox, filter_isMalformed]

/-- The first event is overtaken while it waits, and the notification behind it is not. -/
example :
    (Mailbox.after ["FEATURE"] [.send (.event (.set ⟨"FEATURE", "ntp"⟩ .empty)),
      .send (.malformed "?"), .send (.event (.del ⟨"FEATURE", "ntp"⟩)), .poll, .poll]).handed =
      [.malformed "?", .event (.del ⟨"FEATURE", "ntp"⟩)] := by
  decide +kernel

end Converge.Store
