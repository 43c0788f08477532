import Converge.Proofs.Store.Delivery

/-!
# What a subscription is still to tell

The rows of one key that are pending in a queue, seen from the side of somebody who holds the
subscription while others change rows, break the connection off and mend it again.

* `Memory.told`: the rows of a key that a subscription is still to tell, oldest first;
* `Tended`: the subscription is there and its holder still wants it. **As long as it was not broken
  off, every row that it is to tell is the one that the store holds**; a broken one is not fed any
  more and keeps what it has;
* `Change`: what others do to a store. **`Tended.undergo`**: a change only drops rows from what a
  subscription is to tell, or adds the row that the store holds after it;
* `Tended.poll`: a poll takes the first of them.
-/

namespace Converge.Store

/-! ## 1. Changes of a store -/

/-- What others do to a store. -/
inductive Change where
  | set (id : RowKey) (row : Row)
  | del (id : RowKey)
  | disconnect
  | reconnect
deriving DecidableEq

/-- The store after a change. -/
def Memory.undergo (m : Memory) : Change → Memory
  | .set id row => m.set id row
  | .del id => m.del id
  | .disconnect => m.disconnect
  | .reconnect => m.reconnect

/-! ## 2. Rows on their way -/

/-- The rows of a key that are pending, oldest first. -/
def Queue.rowsOf (q : Queue) (id : RowKey) : List (Option Row) :=
  (q.pending.filter fun e => e.id = id).map ChangeEvent.leaves

/-- The rows of a key that a subscription is still to tell, oldest first. -/
def Memory.told (m : Memory) (sub : SubId) (id : RowKey) : List (Option Row) :=
  match m.queues.get? sub with
  | some q => q.rowsOf id
  | none => []

theorem Memory.told_eq {m : Memory} {sub : SubId} {q : Queue} (hq : m.queues.get? sub = some q)
    (id : RowKey) : m.told sub id = q.rowsOf id := by
  unfold told
  rw [hq]

/-- A subscription that somebody holds: it is fed and tells the truth, or it is broken off. -/
def Tended (m : Memory) (tables : List String) (sub : SubId) : Prop :=
  ∃ q, m.queues.get? sub = some q ∧ q.cancelled = false ∧
    (q.broken = true ∨ (sub ∈ m.live ∧ Faithful m.row? tables q))

/-- Pending rows of a queue that tells the truth are what the store holds. -/
theorem Faithful.eq_of_mem_rowsOf {truth : RowKey → Option Row} {tables : List String} {q : Queue}
    (h : Faithful truth tables q) {id : RowKey} {row : Option Row} (hrow : row ∈ q.rowsOf id) :
    row = truth id := by
  obtain ⟨e, he, rfl⟩ := List.mem_map.mp hrow
  obtain ⟨hmem, hid⟩ := List.mem_filter.mp he
  obtain rfl : e.id = id := of_decide_eq_true hid
  exact (h.tells e hmem).2

namespace Queue

variable {q : Queue}

theorem push_of_broken (h : q.broken = true) (item : Item) : q.push item = q := if_pos h

theorem publish_of_broken (h : q.broken = true) (e : ChangeEvent) : q.publish e = q := by
  unfold publish
  rw [push_of_broken h, ite_self]

theorem breakOff_of_broken (h : q.broken = true) : q.breakOff = q := by
  obtain ⟨tables, items, broken, cancelled⟩ := q
  cases h
  rfl

/-- A published event takes the place of what was pending of its key. -/
theorem rowsOf_publish (h : q.broken = false) (e : ChangeEvent) (id : RowKey) :
    (q.publish e).rowsOf id =
      if q.tables.contains e.id.table = true ∧ e.id = id then [e.leaves] else q.rowsOf id := by
  unfold publish
  by_cases ht : q.tables.contains e.id.table = true
  · rw [if_pos ht]
    unfold rowsOf
    rw [pending_push_event h, List.filter_append, List.filter_filter]
    by_cases hid : e.id = id
    · rw [if_pos ⟨ht, hid⟩]
      subst hid
      have hnone : (q.pending.filter fun p => decide (p.id = e.id) && decide (p.id ≠ e.id)) = [] :=
        List.filter_eq_nil_iff.mpr fun p _ => by simp
      rw [hnone]
      simp
    · rw [if_neg fun hc => hid hc.2]
      have hkept : (q.pending.filter fun p => decide (p.id = id) && decide (p.id ≠ e.id)) =
          q.pending.filter fun p => p.id = id := List.filter_congr fun p _ => by
        by_cases hp : p.id = id
        · simp [hp, Ne.symm hid]
        · simp [hp]
      rw [hkept]
      simp [hid]
  · rw [if_neg ht, if_neg fun hc => ht hc.1]

end Queue

/-! ## 3. A change leaves every subscription tended -/

namespace Memory

variable {m : Memory} {sub : SubId} {q : Queue}

/-- A queue that a message leaves as it is stays so, however often the store lists it. -/
theorem queue_toLive_of_fixed (hq : m.queues.get? sub = some q) {f : Queue → Queue} (hf : f q = q) :
    (m.toLive f).queues.get? sub = some q := by
  unfold toLive
  rw [get?_onQueues, hq, Option.map_some, Function.iterate_fixed hf]

/-- **A lost connection breaks the subscription off**, and leaves it what it has. -/
theorem queue_disconnect (hq : m.queues.get? sub = some q)
    (hfed : q.broken = true ∨ sub ∈ m.live) :
    m.disconnect.queues.get? sub = some q.breakOff := by
  show (m.toLive Queue.breakOff).queues.get? sub = _
  rcases hfed with hbroken | hlive
  · rw [Queue.breakOff_of_broken hbroken]
    exact queue_toLive_of_fixed hq (Queue.breakOff_of_broken hbroken)
  · obtain ⟨n, hn⟩ : ∃ n, m.live.count sub = n + 1 :=
      ⟨m.live.count sub - 1, by have := List.count_pos_iff.mpr hlive; omega⟩
    unfold toLive
    rw [get?_onQueues, hq, hn, Option.map_some, Function.iterate_succ_apply]
    exact congrArg some (Function.iterate_fixed (Queue.breakOff_of_broken rfl) n)

end Memory

namespace Tended

variable {m : Memory} {tables : List String} {sub : SubId}

/-- A change of one row that is published. -/
theorem commit (h : Tended m tables sub) {stored : SortedMap String Table} {e : ChangeEvent}
    (hrow : ∀ id, Memory.rowIn stored id = if id = e.id then e.leaves else m.row? id) :
    Tended (Memory.publish { m with tables := stored } e) tables sub ∧
    ∀ id, ((Memory.publish { m with tables := stored } e).told sub id).Sublist
      (m.told sub id ++ [Memory.rowIn stored id]) := by
  obtain ⟨q, hq, hwanted, hbroken | ⟨hlive, hfaith⟩⟩ := h
  · -- a broken subscription receives nothing
    have hq' : (Memory.publish { m with tables := stored } e).queues.get? sub = some q :=
      Memory.queue_toLive_of_fixed hq (Queue.publish_of_broken hbroken e)
    refine ⟨⟨q, hq', hwanted, .inl hbroken⟩, fun id => ?_⟩
    rw [Memory.told_eq hq', Memory.told_eq hq]
    exact List.sublist_append_left _ _
  · have hq' := Memory.queue_publish (m := { m with tables := stored }) hlive hq e
    refine ⟨⟨_, hq', by rw [Queue.cancelled_publish, hwanted], .inr ⟨hlive, hfaith.publish hrow⟩⟩,
      fun id => ?_⟩
    rw [Memory.told_eq hq', Memory.told_eq hq, Queue.rowsOf_publish hfaith.unbroken]
    by_cases hcase : q.tables.contains e.id.table = true ∧ e.id = id
    · rw [if_pos hcase, hrow, if_pos hcase.2.symm]
      exact List.sublist_append_right _ _
    · rw [if_neg hcase]
      exact List.sublist_append_left _ _

theorem del (h : Tended m tables sub) (id : RowKey) : Tended (m.del id) tables sub ∧
    ∀ id', ((m.del id).told sub id').Sublist (m.told sub id' ++ [(m.del id).row? id']) :=
  h.commit fun id' => Memory.rowIn_eraseRow m.tables id id'

theorem set (h : Tended m tables sub) (id : RowKey) (row : Row) :
    Tended (m.set id row) tables sub ∧
    ∀ id', ((m.set id row).told sub id').Sublist (m.told sub id' ++ [(m.set id row).row? id']) := by
  unfold Memory.set
  by_cases he : row.isEmpty = true
  · rw [if_pos he]
    exact h.del id
  · rw [if_neg he]
    refine h.commit fun id' => ?_
    rw [Memory.rowIn_putRow, ChangeEvent.leaves_set (eq_false_of_ne_true he)]
    rfl

theorem disconnect (h : Tended m tables sub) : Tended m.disconnect tables sub ∧
    ∀ id, m.disconnect.told sub id = m.told sub id := by
  obtain ⟨q, hq, hwanted, hfed⟩ := h
  have hq' := Memory.queue_disconnect hq (hfed.imp_right And.left)
  refine ⟨⟨_, hq', hwanted, .inl rfl⟩, fun id => ?_⟩
  rw [Memory.told_eq hq', Memory.told_eq hq]
  rfl

/-- **After any change the subscription is still tended**, and it is to tell nothing more than before
    but the row that the store holds now. -/
theorem undergo (h : Tended m tables sub) (c : Change) : Tended (m.undergo c) tables sub ∧
    ∀ id, ((m.undergo c).told sub id).Sublist (m.told sub id ++ [(m.undergo c).row? id]) := by
  cases c with
  | set id row => exact h.set id row
  | del id => exact h.del id
  | disconnect =>
    obtain ⟨htended, htold⟩ := h.disconnect
    refine ⟨htended, fun id => ?_⟩
    show (m.disconnect.told sub id).Sublist _
    rw [htold]
    exact List.sublist_append_left _ _
  | reconnect => exact ⟨h, fun id => List.sublist_append_left _ _⟩

/-! ## 4. The holder's own accesses -/

/-- A new subscription is tended and has nothing to tell. -/
theorem subscribe {m' : Memory} (hs : m.subscribe tables = (.ok sub, m')) :
    Tended m' tables sub ∧ m'.tables = m.tables ∧ ∀ id, m'.told sub id = [] := by
  unfold Memory.subscribe at hs
  split at hs
  · cases hs
  · cases hs
    have hq : (m.queues.insert m.nextId (.opened tables)).get? m.nextId = some (.opened tables) :=
      (SortedMap.get?_insert _ _ _ _).trans (if_pos rfl)
    refine ⟨⟨.opened tables, hq, rfl, .inr ⟨List.mem_append_right _ List.mem_cons_self,
      Faithful.opened _ _⟩⟩, rfl, fun id => ?_⟩
    unfold Memory.told
    rw [hq]
    rfl

/-- **A poll takes the first of the rows, or leaves them all.** -/
theorem poll (h : Tended m tables sub) : Tended (m.poll sub).2 tables sub ∧
    (m.poll sub).2.tables = m.tables ∧
    ((∃ e, (m.poll sub).1 = some (.event e) ∧ ∀ id, m.told sub id =
        (if e.id = id then [e.leaves] else []) ++ (m.poll sub).2.told sub id) ∨
      ((∀ e, (m.poll sub).1 ≠ some (.event e)) ∧
        ∀ id, (m.poll sub).2.told sub id = m.told sub id)) := by
  obtain ⟨q, hq, hwanted, hfed⟩ := h
  have hkept : ∀ items, (∀ p ∈ Queue.pending { q with items }, p ∈ q.pending) →
      Tended { m with queues := m.queues.insert sub { q with items } } tables sub := by
    intro items hsub
    have hq' : (m.queues.insert sub { q with items }).get? sub = some { q with items } :=
      (SortedMap.get?_insert _ _ _ _).trans (if_pos rfl)
    exact ⟨_, hq', hwanted, hfed.imp_right fun hf => ⟨hf.1, hf.2.shrink hsub⟩⟩
  have htold : ∀ items id, Memory.told { m with queues := m.queues.insert sub { q with items } } sub
      id = Queue.rowsOf { q with items } id := fun items id =>
    Memory.told_eq ((SortedMap.get?_insert _ _ _ _).trans (if_pos rfl)) id
  rcases Queue.next_cases hwanted with ⟨e, rest, hn, hpend⟩ | ⟨a, rest, hn, hno, hpend⟩
  · rw [Memory.poll_eq hq hn]
    refine ⟨hkept rest fun p hp => hpend ▸ List.mem_cons_of_mem _ hp, rfl, .inl ⟨e, rfl, fun id => ?_⟩⟩
    rw [htold, Memory.told_eq hq]
    unfold Queue.rowsOf
    rw [hpend, List.filter_cons]
    by_cases hid : e.id = id <;> simp [hid]
  · rw [Memory.poll_eq hq hn]
    refine ⟨hkept rest fun p hp => hpend ▸ hp, rfl, .inr ⟨hno, fun id => ?_⟩⟩
    rw [htold, Memory.told_eq hq]
    unfold Queue.rowsOf
    rw [hpend]

end Tended

/-- A load reads the rows as the store holds them. -/
theorem Memory.load_cases (m : Memory) (tables : List String) :
    (∃ e, m.load tables = (.error e, m)) ∨
    (m.disconnected = false ∧ ∃ s, m.load tables = (.ok s, { m with loads := m.loads + 1 }) ∧
      (∀ t ∈ tables, s.tracks t = true) ∧ ∀ id, id.table ∈ tables → s.row? id = m.row? id) := by
  unfold load
  by_cases hdown : m.disconnected = true
  · rw [if_pos hdown]
    exact .inl ⟨_, rfl⟩
  · rw [if_neg hdown]
    refine .inr ⟨eq_false_of_ne_true hdown, _, rfl, fun t ht => ?_, fun id hid => ?_⟩
    · rw [tracks_copyTables]
      exact List.contains_iff_mem.mpr ht
    · rw [row?_copyTables, if_pos hid]
      rfl

end Converge.Store
