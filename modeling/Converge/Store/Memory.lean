import Converge.Snapshot
import Converge.Store.Queue

/-!
# A store inside the process

Configuration rows, status rows and subscriptions. Every change of a row is sent to the
subscriptions of its table.

* `set` with the empty row deletes the key, and **a deletion is sent even if the key was not
  there**;
* `inject` and `injectMalformed` send something to every subscription without touching a row;
* `disconnect` breaks off every subscription, and until `reconnect` nothing can be loaded,
  subscribed to or published. Rows can be changed all the while.
-/

namespace Converge.Store

/-- The name of a subscription. -/
abbrev SubId := Nat

/-- A store inside the process. -/
structure Memory where
  tables : SortedMap String Table := .empty
  status : SortedMap RowKey Row := .empty
  disconnected : Bool := false
  /-- The subscriptions that the store sends to. -/
  live : List SubId := []
  /-- The queues of all subscriptions that somebody still holds. -/
  queues : SortedMap SubId Queue := .empty
  /-- The number of loads that succeeded. -/
  loads : Nat := 0
  /-- The name for the next subscription. -/
  nextId : SubId := 0

instance : Inhabited Memory := ⟨{}⟩

namespace Memory

/-! ## 1. Sending -/

/-- Changes the queue of one subscription. -/
def onQueue (f : Queue → Queue) (qs : SortedMap SubId Queue) (id : SubId) :
    SortedMap SubId Queue :=
  match qs.get? id with
  | some q => qs.insert id (f q)
  | none => qs

/-- Changes the queues of the live subscriptions. -/
def toLive (m : Memory) (f : Queue → Queue) : Memory :=
  { m with queues := m.live.foldl (onQueue f) m.queues }

/-- Sends an event to the subscriptions of its table. -/
def publish (m : Memory) (e : ChangeEvent) : Memory := m.toLive fun q => q.publish e

/-- Sends an event to every subscription. -/
def inject (m : Memory) (e : ChangeEvent) : Memory := m.toLive fun q => q.push (.event e)

/-- Sends an unreadable notification to every subscription. -/
def injectMalformed (m : Memory) (message : String) : Memory :=
  m.toLive fun q => q.push (.malformed message)

/-! ## 2. Rows -/

/-- A row of the tables. -/
def rowIn (tables : SortedMap String Table) (id : RowKey) : Option Row :=
  (tables.get? id.table).bind fun t => t.get? id.key

/-- One configuration row. -/
def row? (m : Memory) (id : RowKey) : Option Row := rowIn m.tables id

/-- The tables without a row. -/
def eraseRow (tables : SortedMap String Table) (id : RowKey) : SortedMap String Table :=
  match tables.get? id.table with
  | some t => tables.insert id.table (t.erase id.key)
  | none => tables

/-- The tables with a row in place of the old one. -/
def putRow (tables : SortedMap String Table) (id : RowKey) (row : Row) : SortedMap String Table :=
  tables.insert id.table (((tables.get? id.table).getD .empty).insert id.key row)

/-- Deletes a row. -/
def del (m : Memory) (id : RowKey) : Memory :=
  { m with tables := eraseRow m.tables id }.publish (.del id)

/-- Writes a whole row; the empty row deletes the key. -/
def set (m : Memory) (id : RowKey) (row : Row) : Memory :=
  if row.isEmpty then m.del id
  else { m with tables := putRow m.tables id row }.publish (.set id row)

/-! ## 3. The connection -/

/-- Loses the connection. -/
def disconnect (m : Memory) : Memory :=
  { m.toLive Queue.breakOff with disconnected := true, live := [] }

/-- Makes the store reachable again. -/
def reconnect (m : Memory) : Memory := { m with disconnected := false }

/-- The tables that were read with one more, which is without a row if it is not stored. -/
def copyTable (stored read : SortedMap String Table) (t : String) : SortedMap String Table :=
  read.insert t ((stored.get? t).getD .empty)

/-- Reads every row of the given tables. -/
def load (m : Memory) (tables : List String) : Except Error Snapshot × Memory :=
  if m.disconnected then (.error (Queue.lost "load_all"), m)
  else
    (.ok ⟨tables.foldl (copyTable m.tables) .empty⟩, { m with loads := m.loads + 1 })

/-- Opens a subscription. -/
def subscribe (m : Memory) (tables : List String) : Except Error SubId × Memory :=
  if m.disconnected then (.error (Queue.lost "subscribe"), m)
  else
    (.ok m.nextId, { m with
      live := m.live ++ [m.nextId]
      queues := m.queues.insert m.nextId (.opened tables)
      nextId := m.nextId + 1 })

/-- Nobody holds the subscription any more. -/
def dropSubscription (m : Memory) (id : SubId) : Memory :=
  { m with live := m.live.filter (· != id), queues := m.queues.erase id }

/-- The subscriber wants nothing more. -/
def cancel (m : Memory) (id : SubId) : Memory :=
  match m.queues.get? id with
  | some q => { m with queues := m.queues.insert id q.cancel }
  | none => m

/-- What polling a subscription yields at once, or `none` if it has to wait. -/
def poll (m : Memory) (id : SubId) : Option Polled × Memory :=
  match m.queues.get? id with
  | some q =>
    let (answer, q) := q.next
    (answer, { m with queues := m.queues.insert id q })
  | none => (some .nothing, m)

/-- The number of subscriptions that the store sends to. -/
def subscribers (m : Memory) : Nat := m.live.length

/-! ## 4. Status rows -/

/-- Publishes a status row. -/
def setStatus (m : Memory) (id : RowKey) (row : Row) : Except Error Unit × Memory :=
  if m.disconnected then (.error (Queue.lost "set_status"), m)
  else (.ok (), { m with status := m.status.insert id row })

/-- Takes a status row back. -/
def clearStatus (m : Memory) (id : RowKey) : Except Error Unit × Memory :=
  if m.disconnected then (.error (Queue.lost "clear_status"), m)
  else (.ok (), { m with status := m.status.erase id })

/-! ## 5. Tables and queues after an access -/

theorem poll_eq {m : Memory} {id : SubId} {q q' : Queue} {answer : Option Polled}
    (hq : m.queues.get? id = some q) (hn : q.next = (answer, q')) :
    m.poll id = (answer, { m with queues := m.queues.insert id q' }) := by
  unfold poll
  rw [hq]
  simp only [hn]

theorem rowIn_eraseRow (tables : SortedMap String Table) (id id' : RowKey) :
    rowIn (eraseRow tables id) id' = if id' = id then none else rowIn tables id' := by
  unfold rowIn eraseRow
  cases ht : tables.get? id.table with
  | none =>
    by_cases h : id' = id
    · rw [if_pos h, h, ht]
      rfl
    · rw [if_neg h]
  | some t =>
    rw [SortedMap.get?_insert]
    by_cases hn : id'.table = id.table
    · rw [if_pos hn, Option.bind_some, SortedMap.get?_erase, hn, ht, Option.bind_some]
      simp only [RowKey.eq_iff_of_table hn]
    · rw [if_neg hn, if_neg fun h => hn (congrArg RowKey.table h)]

theorem rowIn_putRow (tables : SortedMap String Table) (id id' : RowKey) (row : Row) :
    rowIn (putRow tables id row) id' = if id' = id then some row else rowIn tables id' := by
  unfold rowIn putRow
  rw [SortedMap.get?_insert]
  by_cases hn : id'.table = id.table
  · rw [if_pos hn, Option.bind_some, SortedMap.get?_insert, hn]
    cases tables.get? id.table with
    | none => simp only [RowKey.eq_iff_of_table hn]; rfl
    | some t => simp only [RowKey.eq_iff_of_table hn]; rfl
  · rw [if_neg hn, if_neg fun h => hn (congrArg RowKey.table h)]

theorem get?_copyTables (stored : SortedMap String Table) (t : String) :
    ∀ (names : List String) (read : SortedMap String Table),
      (names.foldl (copyTable stored) read).get? t =
        if t ∈ names then some ((stored.get? t).getD .empty) else read.get? t
  | [], read => by simp
  | name :: rest, read => by
    rw [List.foldl_cons, get?_copyTables stored t rest, copyTable, SortedMap.get?_insert]
    by_cases hr : t ∈ rest
    · rw [if_pos hr, if_pos (List.mem_cons_of_mem _ hr)]
    · rw [if_neg hr]
      by_cases hn : t = name
      · rw [if_pos hn, hn, if_pos List.mem_cons_self]
      · rw [if_neg hn, if_neg fun h => (List.mem_cons.mp h).elim hn hr]

/-- The tables that were read are tracked, and no others. -/
theorem tracks_copyTables (stored : SortedMap String Table) (names : List String) (t : String) :
    (Snapshot.mk (names.foldl (copyTable stored) .empty)).tracks t = names.contains t := by
  unfold Snapshot.tracks SortedMap.contains
  rw [get?_copyTables]
  by_cases ht : t ∈ names <;> simp [ht]

/-- They have the stored rows. -/
theorem row?_copyTables (stored : SortedMap String Table) (names : List String) (id : RowKey) :
    (Snapshot.mk (names.foldl (copyTable stored) .empty)).row? id =
      if id.table ∈ names then rowIn stored id else none := by
  unfold Snapshot.row? rowIn
  rw [get?_copyTables]
  by_cases hid : id.table ∈ names
  · rw [if_pos hid, if_pos hid]
    cases stored.get? id.table with
    | none => rfl
    | some t => rfl
  · rw [if_neg hid, if_neg hid]
    rfl

end Memory

end Converge.Store
