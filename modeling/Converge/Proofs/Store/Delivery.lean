import Mathlib.Logic.Function.Iterate
import Converge.Proofs.Snapshot.Replay
import Converge.Store.Memory

/-!
# No update is lost between a store and its subscriber

A subscriber opens a subscription, loads, and from then on polls; writers change rows all the while,
and the subscriber may load again whenever it likes. `Follower` is the subscriber beside its store,
`Move` is one access of a writer or of the subscriber, and `Follows` is all that can be reached.

* `Faithful truth tables q`: every event that is pending in `q` says what is true now. Coalescing
  makes it so: the events of a key that were overtaken are gone;
* `InStep` is the invariant: the queue is faithful, and whatever row of the subscriber's view is out
  of date has an event pending;
* `InStep.move`, `inStep_of_follows`: one move keeps it, so it holds of whatever is reached;
* **`no_update_lost`**: after the first load, the view with the pending events replayed on it is what
  the store holds of the subscribed tables.
-/

namespace Converge.Store

/-! ## 1. A subscriber beside its store -/

/-- An access to a store that one subscriber follows. -/
inductive Move where
  /-- A writer sets a row. -/
  | set (id : RowKey) (row : Row)
  /-- A writer deletes a row. -/
  | del (id : RowKey)
  /-- An unreadable notification is sent. -/
  | garble (message : String)
  /-- The subscriber reads every row of its tables. -/
  | load
  /-- The subscriber polls its subscription. -/
  | poll

/-- A subscriber beside its store. -/
structure Follower where
  store : Memory
  sub : SubId
  tables : List String
  /-- The snapshot of the last load. -/
  loaded : Option Snapshot
  /-- The events polled since then, oldest first. -/
  polled : List ChangeEvent

namespace Follower

/-- A subscriber that has only just subscribed. -/
def begin (m : Memory) (sub : SubId) (tables : List String) : Follower := ⟨m, sub, tables, none, []⟩

/-- After one access. -/
def move (f : Follower) : Move → Follower
  | .set id row => { f with store := f.store.set id row }
  | .del id => { f with store := f.store.del id }
  | .garble message => { f with store := f.store.injectMalformed message }
  | .load =>
    match f.store.load f.tables with
    | (.ok s, m) => { f with store := m, loaded := some s, polled := [] }
    | (.error _, m) => { f with store := m }
  | .poll =>
    match f.store.poll f.sub with
    | (some (.event e), m) => { f with store := m, polled := f.polled ++ [e] }
    | (_, m) => { f with store := m }

/-- The events that the subscription still holds, oldest first. -/
def pending (f : Follower) : List ChangeEvent :=
  match f.store.queues.get? f.sub with
  | some q => q.pending
  | none => []

theorem tables_move (f : Follower) (mv : Move) : (f.move mv).tables = f.tables := by
  cases mv with
  | set id row => rfl
  | del id => rfl
  | garble message => rfl
  | load =>
    simp only [move]
    split <;> rfl
  | poll =>
    simp only [move]
    split <;> rfl

end Follower

/-- What a subscriber to the tables of a store comes to, in whatever order everybody moves. -/
inductive Follows (m₀ : Memory) (tables : List String) : Follower → Prop where
  | begin {m : Memory} {sub : SubId} (h : m₀.subscribe tables = (.ok sub, m)) :
      Follows m₀ tables (.begin m sub tables)
  | move {f : Follower} (h : Follows m₀ tables f) (mv : Move) : Follows m₀ tables (f.move mv)

theorem follows_foldl {m₀ : Memory} {tables : List String} {f : Follower}
    (h : Follows m₀ tables f) (moves : List Move) :
    Follows m₀ tables (moves.foldl Follower.move f) := by
  induction moves generalizing f with
  | nil => exact h
  | cons mv rest ih => exact ih (h.move mv)

/-- The snapshot holds exactly the store's rows of the tables. -/
structure Mirrors (s : Snapshot) (m : Memory) (tables : List String) : Prop where
  tracks : ∀ t, s.tracks t = tables.contains t
  rows : ∀ id, s.row? id = if id.table ∈ tables then m.row? id else none

/-! ## 2. Queues of live subscriptions -/

namespace Memory

/-- A queue is changed once for each time that its subscription is listed as live. -/
theorem get?_onQueues (f : Queue → Queue) (id : SubId) : ∀ (live : List SubId)
    (qs : SortedMap SubId Queue),
    (live.foldl (onQueue f) qs).get? id = (qs.get? id).map f^[live.count id]
  | [], qs => by simp
  | i :: rest, qs => by
    rw [List.foldl_cons, get?_onQueues f id rest, onQueue]
    cases hq : qs.get? i with
    | none =>
      by_cases hi : i = id
      · subst hi
        simp [hq]
      · rw [List.count_cons_of_ne hi]
    | some q =>
      rw [SortedMap.get?_insert]
      by_cases hi : i = id
      · subst hi
        rw [if_pos rfl, hq, List.count_cons_self]
        rfl
      · rw [if_neg (Ne.symm hi), List.count_cons_of_ne hi]

/-- A live subscription receives what is published, however often the store lists it. -/
theorem queue_publish {m : Memory} {id : SubId} {q : Queue} (hl : id ∈ m.live)
    (hq : m.queues.get? id = some q) (e : ChangeEvent) :
    (m.publish e).queues.get? id = some (q.publish e) := by
  obtain ⟨n, hn⟩ : ∃ n, m.live.count id = n + 1 :=
    ⟨m.live.count id - 1, by have := List.count_pos_iff.mpr hl; omega⟩
  unfold publish toLive
  rw [get?_onQueues, hq, hn, Option.map_some, Function.iterate_succ_apply]
  exact congrArg some
    (@Function.iterate_fixed _ (fun q : Queue => q.publish e) _ (Queue.publish_publish q e) n)

theorem queue_injectMalformed {m : Memory} {id : SubId} {q : Queue}
    (hq : m.queues.get? id = some q) (message : String) :
    (m.injectMalformed message).queues.get? id =
      some ((fun q => q.push (.malformed message))^[m.live.count id] q) := by
  unfold injectMalformed toLive
  rw [get?_onQueues, hq, Option.map_some]

end Memory

/-! ## 3. Pending events that tell the truth -/

/-- An open queue of the tables, in which every pending event says what is true now. -/
structure Faithful (truth : RowKey → Option Row) (tables : List String) (q : Queue) : Prop where
  tables_eq : q.tables = tables
  unbroken : q.broken = false
  wanted : q.cancelled = false
  tells : ∀ e ∈ q.pending, e.id.table ∈ tables ∧ e.leaves = truth e.id

namespace Faithful

variable {truth truth' : RowKey → Option Row} {tables : List String} {q : Queue}

theorem opened (truth : RowKey → Option Row) (tables : List String) :
    Faithful truth tables (.opened tables) :=
  ⟨rfl, rfl, rfl, fun _ h => absurd h List.not_mem_nil⟩

/-- What a published change leaves pending. -/
theorem mem_pending_publish (h : Faithful truth tables q) {e p : ChangeEvent} :
    p ∈ (q.publish e).pending ↔
      (p ∈ q.pending ∧ p.id ≠ e.id) ∨ (e.id.table ∈ tables ∧ p = e) := by
  unfold Queue.publish
  by_cases ht : e.id.table ∈ tables
  · rw [if_pos (by simpa [h.tables_eq] using ht), Queue.pending_push_event h.unbroken]
    simp [ht]
  · rw [if_neg (by simpa [h.tables_eq] using ht)]
    constructor
    · intro hp
      exact .inl ⟨hp, fun he => ht (he ▸ (h.tells p hp).1)⟩
    · rintro (⟨hp, -⟩ | ⟨he, -⟩)
      · exact hp
      · exact absurd he ht

/-- **A published change keeps the pending events true**: those that it overtakes are gone. -/
theorem publish (h : Faithful truth tables q) {e : ChangeEvent}
    (hnew : ∀ id, truth' id = if id = e.id then e.leaves else truth id) :
    Faithful truth' tables (q.publish e) where
  tables_eq := by rw [Queue.tables_publish, h.tables_eq]
  unbroken := by rw [Queue.broken_publish, h.unbroken]
  wanted := by rw [Queue.cancelled_publish, h.wanted]
  tells p hp := by
    rcases h.mem_pending_publish.mp hp with ⟨hp, hne⟩ | ⟨ht, rfl⟩
    · rw [hnew, if_neg hne]
      exact h.tells p hp
    · rw [hnew, if_pos rfl]
      exact ⟨ht, rfl⟩

theorem push_malformed (h : Faithful truth tables q) (message : String) :
    Faithful truth tables (q.push (.malformed message)) where
  tables_eq := by rw [Queue.tables_push, h.tables_eq]
  unbroken := by rw [Queue.broken_push, h.unbroken]
  wanted := by rw [Queue.cancelled_push, h.wanted]
  tells p hp := by
    rw [Queue.pending_push_malformed] at hp
    exact h.tells p hp

/-- A queue that holds no other events is as faithful. -/
theorem shrink (h : Faithful truth tables q) {items : List Item}
    (hsub : ∀ p ∈ Queue.pending { q with items }, p ∈ q.pending) :
    Faithful truth tables { q with items } :=
  ⟨h.tables_eq, h.unbroken, h.wanted, fun p hp => h.tells p (hsub p hp)⟩

end Faithful

/-! ## 4. The invariant -/

/-- The subscriber can catch up: its queue is faithful, and of its view only rows with a pending
    event are out of date. -/
structure InStep (f : Follower) : Prop where
  reachable : f.store.disconnected = false
  live : f.sub ∈ f.store.live
  queue : ∃ q, f.store.queues.get? f.sub = some q ∧ Faithful f.store.row? f.tables q
  view : ∀ base, f.loaded = some base → ∃ view, base.replay f.polled = .ok view ∧
    (∀ t, view.tracks t = f.tables.contains t) ∧
    ∀ id, id.table ∈ f.tables → id ∉ f.pending.map (·.id) → view.row? id = f.store.row? id

theorem Follower.pending_eq {f : Follower} {q : Queue} (h : f.store.queues.get? f.sub = some q) :
    f.pending = q.pending := by
  unfold Follower.pending
  rw [h]

namespace InStep

variable {f : Follower}

/-- A subscription begins with an empty queue and without a view. -/
theorem begin {m₀ m : Memory} {tables : List String} {sub : SubId}
    (h : m₀.subscribe tables = (.ok sub, m)) : InStep (.begin m sub tables) := by
  unfold Memory.subscribe at h
  split at h
  · cases h
  · rename_i hd
    cases h
    refine ⟨eq_false_of_ne_true hd, List.mem_append_right _ List.mem_cons_self, ?_, ?_⟩
    · refine ⟨.opened tables, ?_, Faithful.opened _ _⟩
      exact (SortedMap.get?_insert _ _ _ _).trans (if_pos rfl)
    · intro base hbase
      cases hbase

/-- **A change of one row that is published keeps the invariant.** -/
theorem commit (h : InStep f) {tables : SortedMap String Table} {e : ChangeEvent}
    (hrow : ∀ id, Memory.rowIn tables id = if id = e.id then e.leaves else f.store.row? id) :
    InStep { f with store := Memory.publish { f.store with tables } e } := by
  obtain ⟨q, hq, hfaith⟩ := h.queue
  have hq' := Memory.queue_publish (m := { f.store with tables }) h.live hq e
  refine ⟨h.reachable, h.live, ⟨_, hq', hfaith.publish hrow⟩, fun base hbase => ?_⟩
  obtain ⟨view, hview, htracks, hrows⟩ := h.view base hbase
  refine ⟨view, hview, htracks, fun id hid hnone => ?_⟩
  rw [Follower.pending_eq hq'] at hnone
  rw [Follower.pending_eq hq] at hrows
  have hne : id ≠ e.id := fun he => hnone <| List.mem_map.mpr
    ⟨e, hfaith.mem_pending_publish.mpr (.inr ⟨he ▸ hid, rfl⟩), he.symm⟩
  have hold : id ∉ q.pending.map (·.id) := fun hmem => by
    obtain ⟨p, hp, rfl⟩ := List.mem_map.mp hmem
    exact hnone (List.mem_map.mpr ⟨p, hfaith.mem_pending_publish.mpr (.inl ⟨hp, hne⟩), rfl⟩)
  rw [hrows id hid hold]
  exact ((hrow id).trans (if_neg hne)).symm

theorem del (h : InStep f) (id : RowKey) : InStep (f.move (.del id)) :=
  h.commit fun id' => Memory.rowIn_eraseRow f.store.tables id id'

theorem set (h : InStep f) (id : RowKey) (row : Row) : InStep (f.move (.set id row)) := by
  show InStep { f with store := f.store.set id row }
  unfold Memory.set
  by_cases he : row.isEmpty = true
  · rw [if_pos he]
    exact h.del id
  · rw [if_neg he]
    refine h.commit fun id' => ?_
    rw [Memory.rowIn_putRow, ChangeEvent.leaves_set (eq_false_of_ne_true he)]
    rfl

theorem garble (h : InStep f) (message : String) : InStep (f.move (.garble message)) := by
  obtain ⟨q, hq, hfaith⟩ := h.queue
  have hq' := Memory.queue_injectMalformed hq message
  have hkept : ∀ n : Nat,
      Faithful f.store.row? f.tables ((fun q : Queue => q.push (.malformed message))^[n] q) ∧
        ((fun q : Queue => q.push (.malformed message))^[n] q).pending = q.pending := by
    intro n
    induction n with
    | zero => exact ⟨hfaith, rfl⟩
    | succ n ih =>
      rw [Function.iterate_succ_apply']
      exact ⟨ih.1.push_malformed message, (Queue.pending_push_malformed _ _).trans ih.2⟩
  refine ⟨h.reachable, h.live, ⟨_, hq', (hkept _).1⟩, fun base hbase => ?_⟩
  obtain ⟨view, hview, htracks, hrows⟩ := h.view base hbase
  refine ⟨view, hview, htracks, fun id hid hnone => hrows id hid ?_⟩
  rw [Follower.pending_eq hq', (hkept _).2, ← Follower.pending_eq hq] at hnone
  exact hnone

/-- A load brings the whole view up to date; what is still pending says nothing new. -/
theorem load (h : InStep f) : InStep (f.move .load) := by
  obtain ⟨q, hq, hfaith⟩ := h.queue
  have hload : f.store.load f.tables = (.ok ⟨f.tables.foldl (Memory.copyTable f.store.tables) .empty⟩,
      { f.store with loads := f.store.loads + 1 }) := if_neg (by simp [h.reachable])
  unfold Follower.move
  rw [hload]
  refine ⟨h.reachable, h.live, ⟨q, hq, hfaith⟩, fun base hbase => ?_⟩
  cases hbase
  refine ⟨_, rfl, Memory.tracks_copyTables f.store.tables f.tables, fun id hid _ => ?_⟩
  rw [Memory.row?_copyTables, if_pos hid]
  rfl

/-- An event that is polled moves from the queue into the view. -/
theorem poll_event (h : InStep f) {q : Queue} (hq : f.store.queues.get? f.sub = some q)
    (hfaith : Faithful f.store.row? f.tables q) {e : ChangeEvent} {rest : List Item}
    (hpend : q.pending = e :: Queue.pending { q with items := rest }) :
    InStep { f with
      store.queues := f.store.queues.insert f.sub { q with items := rest }
      polled := f.polled ++ [e] } := by
  have hq' : (f.store.queues.insert f.sub { q with items := rest }).get? f.sub =
      some { q with items := rest } := (SortedMap.get?_insert _ _ _ _).trans (if_pos rfl)
  have hin : e ∈ q.pending := hpend ▸ List.mem_cons_self
  have hshrink : Faithful f.store.row? f.tables { q with items := rest } :=
    hfaith.shrink fun p hp => hpend ▸ List.mem_cons_of_mem _ hp
  refine ⟨h.reachable, h.live, ⟨_, hq', hshrink⟩, fun base hbase => ?_⟩
  obtain ⟨view, hview, htracks, hrows⟩ := h.view base hbase
  rw [Follower.pending_eq hq] at hrows
  obtain ⟨htable, htrue⟩ := hfaith.tells e hin
  obtain ⟨next, hnext⟩ :=
    (Snapshot.apply_eq_ok_iff view e).mpr (by rw [htracks]; simpa using htable)
  refine ⟨next, ?_, fun t => (Snapshot.tracks_apply hnext t).trans (htracks t), ?_⟩
  · show base.replay (f.polled ++ [e]) = _
    rw [Snapshot.replay_append _ hview]
    exact Snapshot.replay_cons_eq_ok.mpr ⟨next, hnext, rfl⟩
  · intro id hid hnone
    rw [Follower.pending_eq hq'] at hnone
    rw [Snapshot.row?_apply hnext]
    by_cases heq : id = e.id
    · rw [if_pos heq, heq]
      exact htrue
    · rw [if_neg heq]
      refine hrows id hid fun hmem => ?_
      rw [hpend, List.map_cons] at hmem
      exact (List.mem_cons.mp hmem).elim heq hnone

/-- A poll that yields no event leaves the view and the pending events alone. -/
theorem poll_other (h : InStep f) {q : Queue} (hq : f.store.queues.get? f.sub = some q)
    (hfaith : Faithful f.store.row? f.tables q) {rest : List Item}
    (hpend : q.pending = Queue.pending { q with items := rest }) :
    InStep { f with store.queues := f.store.queues.insert f.sub { q with items := rest } } := by
  have hq' : (f.store.queues.insert f.sub { q with items := rest }).get? f.sub =
      some { q with items := rest } := (SortedMap.get?_insert _ _ _ _).trans (if_pos rfl)
  refine ⟨h.reachable, h.live, ⟨_, hq', hfaith.shrink fun p hp => hpend ▸ hp⟩,
    fun base hbase => ?_⟩
  have hview := h.view base hbase
  rw [Follower.pending_eq hq, hpend] at hview
  rw [Follower.pending_eq hq']
  exact hview

theorem poll (h : InStep f) : InStep (f.move .poll) := by
  obtain ⟨q, hq, hfaith⟩ := h.queue
  unfold Follower.move
  rcases Queue.next_cases hfaith.wanted with ⟨e, rest, hn, hpend⟩ | ⟨a, rest, hn, hno, hpend⟩
  · rw [Memory.poll_eq hq hn]
    exact h.poll_event hq hfaith hpend
  · rw [Memory.poll_eq hq hn]
    have hother := h.poll_other hq hfaith hpend
    cases a with
    | none => exact hother
    | some p =>
      cases p with
      | event e => exact absurd rfl (hno e)
      | nothing => exact hother
      | failed err => exact hother

/-- **One access keeps the invariant.** -/
theorem move (h : InStep f) : ∀ mv : Move, InStep (f.move mv)
  | .set id row => h.set id row
  | .del id => h.del id
  | .garble message => h.garble message
  | .load => h.load
  | .poll => h.poll

/-- An out-of-date row has an event pending, so a replay of what is pending mends the view. -/
theorem catchesUp (h : InStep f) {base : Snapshot} (hload : f.loaded = some base) :
    ∃ view now, base.replay f.polled = .ok view ∧ view.replay f.pending = .ok now ∧
      Mirrors now f.store f.tables := by
  obtain ⟨q, hq, hfaith⟩ := h.queue
  obtain ⟨view, hview, htracks, hrows⟩ := h.view base hload
  rw [Follower.pending_eq hq] at hrows ⊢
  have htracked : ∀ e ∈ q.pending, view.tracks e.id.table = true := fun e he => by
    rw [htracks]
    exact List.contains_iff_mem.mpr (hfaith.tells e he).1
  obtain ⟨now, hnow⟩ := Snapshot.exists_replay q.pending view htracked
  have hsame : ∀ t, now.tracks t = f.tables.contains t := fun t =>
    (Snapshot.tracks_replay hnow t).trans (htracks t)
  refine ⟨view, now, hview, hnow, hsame, fun id => ?_⟩
  by_cases hid : id.table ∈ f.tables
  · rw [if_pos hid, Snapshot.row?_replay f.store.row? (fun e he => (hfaith.tells e he).2) hnow]
    by_cases hp : id ∈ q.pending.map (·.id)
    · rw [if_pos hp]
    · rw [if_neg hp, hrows id hid hp]
  · rw [if_neg hid]
    refine Snapshot.row?_of_not_tracks ((hsame id.table).trans ?_)
    exact eq_false_of_ne_true fun hc => hid (List.contains_iff_mem.mp hc)

end InStep

theorem inStep_of_follows {m₀ : Memory} {tables : List String} {f : Follower}
    (h : Follows m₀ tables f) : InStep f := by
  induction h with
  | begin h => exact InStep.begin h
  | move _ mv ih => exact ih.move mv

theorem tables_of_follows {m₀ : Memory} {tables : List String} {f : Follower}
    (h : Follows m₀ tables f) : f.tables = tables := by
  induction h with
  | begin h => rfl
  | move _ mv ih => exact (Follower.tables_move _ mv).trans ih

/-! ## 5. Nothing is lost -/

/-- **Whatever writers do, the subscriber can catch up**: after the first load, the view with the
    pending events replayed on it is exactly what the store holds of the subscribed tables, and so is
    the view itself if no event is pending. -/
theorem no_update_lost {m₀ : Memory} {tables : List String} {f : Follower}
    (hf : Follows m₀ tables f) {base : Snapshot} (hload : f.loaded = some base) :
    ∃ view now, base.replay f.polled = .ok view ∧ view.replay f.pending = .ok now ∧
      Mirrors now f.store tables ∧ (f.pending = [] → Mirrors view f.store tables) := by
  obtain ⟨view, now, hview, hnow, hmirrors⟩ := (inStep_of_follows hf).catchesUp hload
  rw [tables_of_follows hf] at hmirrors
  refine ⟨view, now, hview, hnow, hmirrors, fun hnone => ?_⟩
  rw [hnone] at hnow
  cases hnow
  exact hmirrors

/-- One moment of a run: `ntp` was set before the load and changed after it, and `lldp` was deleted;
    of these changes one was polled and one is pending. -/
def overtaken : Follower :=
  [.set ⟨"FEATURE", "ntp"⟩ (.ofList [("state", "enabled")]), .load,
    .set ⟨"FEATURE", "ntp"⟩ (.ofList [("state", "disabled")]), .garble "?",
    .del ⟨"FEATURE", "lldp"⟩, .poll].foldl Follower.move
      (.begin (Memory.subscribe {} ["FEATURE"]).2 0 ["FEATURE"])

/-- At that moment the load is older than the store, and the view catches up. -/
theorem no_update_lost_overtaken :
    Follows {} ["FEATURE"] overtaken ∧
    overtaken.loaded =
      some ⟨.ofList [("FEATURE", .ofList [("ntp", .ofList [("state", "enabled")])])]⟩ ∧
    overtaken.pending = [.del ⟨"FEATURE", "lldp"⟩] ∧
    ∃ base view now, overtaken.loaded = some base ∧ base.replay overtaken.polled = .ok view ∧
      view.replay overtaken.pending = .ok now ∧ Mirrors now overtaken.store ["FEATURE"] ∧
      (overtaken.pending = [] → Mirrors view overtaken.store ["FEATURE"]) := by
  have hf : Follows {} ["FEATURE"] overtaken := follows_foldl (.begin rfl) _
  have hload : overtaken.loaded =
      some ⟨.ofList [("FEATURE", .ofList [("ntp", .ofList [("state", "enabled")])])]⟩ := by rfl
  exact ⟨hf, hload, by rfl, _, (no_update_lost hf hload).imp fun view h => h.imp fun now h =>
    ⟨hload, h⟩⟩

end Converge.Store
