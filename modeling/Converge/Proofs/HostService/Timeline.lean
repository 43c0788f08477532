import Converge.Proofs.HostService.Slots

/-!
# Pools in the course of time

A pool that is tried out in the course of time goes through the steps of a desk, some of them at one
moment: what is shown of it is the state of a desk behind some list of steps.

* `Shows`: the pool, the tasks and the replies are those of the desk;
* `Reached`: a timeline that the operations of a test lead to;
* **`Reached.shown`**: every such timeline shows a desk, so whatever holds of all desks holds of it.
-/

namespace Converge.Testkit

open HostService (Pool Desk DeskStep)

/-- What a task comes to. -/
def PoolTask.comesTo (t : PoolTask) : Except String String :=
  match t.breakdown with
  | some message => .error message
  | none => .ok t.id

/-- The reply that a note is about, with the name of the task. -/
def PoolNote.reply? (n : PoolNote) : Option (String × Except Error String) :=
  match n.event with
  | .settled result => some (n.id, result)
  | .ended | .started => none

namespace PoolTimeline

/-- The name of a task. -/
def nameOf (l : PoolTimeline) (k : Nat) : String := (l.tasks[k]?.map (·.id)).getD ""

/-- The timeline shows a desk: its pool, its tasks, its replies; and a task has its end before it
    exactly while it runs. -/
structure Shows (l : PoolTimeline) (d : Desk String) : Prop where
  pool : d.pool = l.pool
  tasks : d.tasks = l.tasks.map PoolTask.comesTo
  ends : l.ends.map (·.2) = l.pool.running
  replies : l.notes.filterMap PoolNote.reply? = d.replies.map fun e => (l.nameOf e.1, e.2)

/-- The timeline shows what can be at a desk. -/
def Shown (maxWorkers : Nat) (l : PoolTimeline) : Prop :=
  ∃ past, l.Shows (Desk.after maxWorkers past)

variable {maxWorkers : Nat} {l : PoolTimeline} {k : Nat}

theorem shown_create : (create maxWorkers).Shown maxWorkers := ⟨[], rfl, rfl, rfl, rfl⟩

theorem Shown.happen (h : l.Shown maxWorkers) {l' : PoolTimeline} (e : DeskStep String)
    (hnext : ∀ d, d.Orderly maxWorkers → l.Shows d → l'.Shows (d.happen e)) : l'.Shown maxWorkers := by
  obtain ⟨past, hshows⟩ := h
  refine ⟨past ++ [e], ?_⟩
  rw [Desk.after_concat]
  exact hnext _ (Desk.orderly_after maxWorkers past) hshows

/-- A submission with a slot is a task that was submitted. -/
theorem Shows.exists_task {d : Desk String} (horderly : d.Orderly maxWorkers) (h : l.Shows d)
    (hk : k ∈ l.pool.places) : ∃ task, l.tasks[k]? = some task := by
  have hlt := horderly.lt_of_mem k (h.pool ▸ hk)
  rw [h.tasks, List.length_map] at hlt
  exact ⟨_, List.getElem?_eq_getElem hlt⟩

theorem note_eq {task : PoolTask} (h : l.tasks[k]? = some task) (event : PoolTask → PoolEvent) :
    l.note k event = { l with notes := l.notes ++ [⟨l.now, event task, task.id⟩] } := by
  simp [note, h]

/-- A step of the pool that gives no reply. -/
theorem Shows.silent {d : Desk String} (h : l.Shows d) {s : Pool.Step} {pool : Pool}
    (hstep : l.pool.step s = some pool) (hreply : d.reply? s = none) {l' : PoolTimeline}
    (hpool : l'.pool = pool) (htasks : l'.tasks = l.tasks) (hends : l'.ends.map (·.2) = pool.running)
    (hnotes : l'.notes.filterMap PoolNote.reply? = l.notes.filterMap PoolNote.reply?) :
    l'.Shows (d.pass s) := by
  have hpass : d.pass s = { d with pool } := by
    simp [Desk.pass, h.pool, hstep, hreply]
  have hname : l'.nameOf = l.nameOf := by
    funext k
    simp [nameOf, htasks]
  rw [hpass]
  exact ⟨hpool.symm, h.tasks.trans (by rw [htasks]), hends.trans (by rw [hpool]),
    by rw [hnotes, hname]; exact h.replies⟩

/-- A step of the pool that gives a reply. -/
theorem Shows.told {d : Desk String} (h : l.Shows d) {s : Pool.Step} {pool : Pool}
    (hstep : l.pool.step s = some pool) {result : Except Error String}
    (hreply : d.reply? s = some (k, result)) {l' : PoolTimeline}
    (hpool : l'.pool = pool) (htasks : l'.tasks = l.tasks) (hends : l'.ends.map (·.2) = pool.running)
    (hnotes : l'.notes.filterMap PoolNote.reply? =
      l.notes.filterMap PoolNote.reply? ++ [(l.nameOf k, result)]) :
    l'.Shows (d.pass s) := by
  have hpass : d.pass s = { d with pool, replies := d.replies ++ [(k, result)] } := by
    simp [Desk.pass, h.pool, hstep, hreply]
  have hname : l'.nameOf = l.nameOf := by
    funext k
    simp [nameOf, htasks]
  rw [hpass]
  exact ⟨hpool.symm, h.tasks.trans (by rw [htasks]), hends.trans (by rw [hpool]),
    by rw [hnotes, hname, List.map_append, h.replies]; rfl⟩

theorem Shown.start (h : l.Shown maxWorkers) (hk : k ∈ l.pool.granted) :
    (l.start k).Shown maxWorkers := by
  refine h.happen (.start k) fun d horderly hshows => ?_
  obtain ⟨task, htask⟩ := hshows.exists_task horderly
    (List.mem_append_left _ (List.mem_append_right _ hk))
  have hname : l.nameOf k = task.id := by simp [nameOf, htask]
  have hstep : l.pool.step (.start k) = some (l.pool.start k) := if_pos hk
  cases hclosed : l.pool.closed with
  | true =>
    have hstill : (l.pool.start k).closed = true := (Pool.closed_step hstep).mpr (.inl hclosed)
    have hstart : l.start k = { l with
        pool := l.pool.start k
        notes := l.notes ++ [⟨l.now, .settled (.error shuttingDown), task.id⟩] } := by
      simp only [PoolTimeline.start, hstill, if_true]
      exact note_eq (l := { l with pool := l.pool.start k }) htask _
    have hreply : d.reply? (.start k) = some (k, .error shuttingDown) := by
      simp [Desk.reply?, hshows.pool, hclosed]
    rw [hstart]
    refine hshows.told hstep hreply rfl rfl ?_ ?_
    · rw [Pool.start_of_closed hclosed, Pool.running_giveBack]
      exact hshows.ends
    · simp [PoolNote.reply?, hname]
  | false =>
    have hstill : (l.pool.start k).closed = false := by rw [Pool.start_of_open hclosed, hclosed]
    have hstart : l.start k = { l with
        pool := l.pool.start k
        ends := l.ends ++ [(l.now + (l.tasks[k]?.map (·.span)).getD 0, k)]
        notes := l.notes ++ [⟨l.now, .started, task.id⟩] } := by
      simp only [PoolTimeline.start, hstill]
      exact note_eq (l := { l with pool := l.pool.start k, ends := _ }) htask _
    rw [hstart]
    refine hshows.silent hstep ?_ rfl rfl ?_ ?_
    · simp [Desk.reply?, hshows.pool, hclosed]
    · simp [Pool.start_of_open hclosed, hshows.ends]
    · simp [PoolNote.reply?]

theorem Shown.turnAway (h : l.Shown maxWorkers) (hclosed : l.pool.closed = true)
    (hk : k ∈ l.pool.waiting) : (l.turnAway k).Shown maxWorkers := by
  refine h.happen (.turnAway k) fun d horderly hshows => ?_
  obtain ⟨task, htask⟩ := hshows.exists_task horderly
    (List.mem_append_left _ (List.mem_append_left _ hk))
  have hname : l.nameOf k = task.id := by simp [nameOf, htask]
  have hstep : l.pool.step (.turnAway k) = some (l.pool.turnAway k) := if_pos ⟨hclosed, hk⟩
  have hturn : l.turnAway k = { l with
      pool := l.pool.turnAway k
      notes := l.notes ++ [⟨l.now, .settled (.error shuttingDown), task.id⟩] } :=
    note_eq (l := { l with pool := l.pool.turnAway k }) htask _
  rw [hturn]
  have hreply : d.reply? (.turnAway k) = some (k, .error shuttingDown) := rfl
  exact hshows.told hstep hreply rfl rfl hshows.ends (by simp [PoolNote.reply?, hname])

/-- The tasks that run are different submissions. -/
theorem nodup_running {d : Desk String} (h : d.Orderly maxWorkers) : d.pool.running.Nodup := by
  have hall := h.places.nodup_iff.mpr List.nodup_range
  exact (List.nodup_append.mp (List.nodup_append.mp hall).1).2.1

theorem Shown.finish (h : l.Shown maxWorkers) (hk : k ∈ l.pool.running) :
    (l.finish k).Shown maxWorkers := by
  refine h.happen (.finish k) fun d horderly hshows => ?_
  obtain ⟨task, htask⟩ := hshows.exists_task horderly (List.mem_append_right _ hk)
  have hname : l.nameOf k = task.id := by simp [nameOf, htask]
  have hstep : l.pool.step (.finish k) = some (l.pool.finish k) := if_pos hk
  have hnodup : l.pool.running.Nodup := hshows.pool ▸ nodup_running horderly
  have hends : (l.ends.filter (·.2 != k)).map (·.2) = (l.pool.finish k).running := by
    have hmap : (l.ends.filter (·.2 != k)).map (·.2) = (l.ends.map (·.2)).filter (· != k) := by
      rw [List.filter_map]
      rfl
    rw [hmap, hshows.ends, Pool.finish, Pool.running_giveBack, hnodup.erase_eq_filter]
  have hreply : d.reply? (.finish k) = some (k, Desk.outcomeOf task.comesTo) := by
    simp [Desk.reply?, hshows.tasks, htask]
  let ended : PoolTimeline := { l with
    pool := l.pool.finish k
    ends := l.ends.filter (·.2 != k) }
  have hfinish : l.finish k = match task.breakdown with
      | some message => ended.note k fun _ => .settled (.error (brokenDown message))
      | none => (ended.note k fun _ => .ended).note k fun task => .settled (.ok task.id) := by
    simp only [PoolTimeline.finish, htask, Option.bind_some]
    rfl
  rw [hfinish]
  cases hbreak : task.breakdown with
  | some message =>
    simp only
    rw [note_eq (l := ended) htask]
    refine hshows.told hstep hreply rfl rfl hends ?_
    simp [PoolNote.reply?, hname, PoolTask.comesTo, hbreak, Desk.outcomeOf, ended]
  | none =>
    simp only
    rw [note_eq (l := ended) htask]
    rw [note_eq (l := { ended with notes := _ }) htask]
    refine hshows.told hstep hreply rfl rfl hends ?_
    simp only [List.append_assoc, List.filterMap_append, hname, ended, PoolTask.comesTo, hbreak,
      Desk.outcomeOf]
    rfl

/-! ## 2. Operations -/

theorem Shown.next {l' : PoolTimeline} (h : l.Shown maxWorkers) (hnext : l.next? = some l') :
    l'.Shown maxWorkers := by
  unfold next? at hnext
  split at hnext
  · rename_i k rest hgranted
    cases hnext
    exact h.start (by simp [hgranted])
  · split at hnext
    · rename_i k rest hwaiting
      cases hnext
      split at hwaiting
      · exact h.turnAway ‹_› (by simp [hwaiting])
      · cases hwaiting
    · obtain ⟨e, he, rfl⟩ := Option.map_eq_some_iff.mp hnext
      obtain ⟨past, hshows⟩ := id h
      exact h.finish (hshows.ends ▸ List.mem_map_of_mem (List.mem_of_find?_eq_some he))

theorem Shown.settleWithin (fuel : Nat) : ∀ {l : PoolTimeline}, l.Shown maxWorkers →
    (l.settleWithin fuel).Shown maxWorkers := by
  induction fuel with
  | zero => exact fun h => h
  | succ fuel ih =>
    intro l h
    unfold PoolTimeline.settleWithin
    split
    · exact ih (h.next ‹_›)
    · exact h

theorem Shown.settle (h : l.Shown maxWorkers) : l.settle.Shown maxWorkers := h.settleWithin _

theorem Shown.submit (h : l.Shown maxWorkers) (task : PoolTask) :
    (l.submit task).Shown maxWorkers := by
  refine Shown.settle (h.happen (.submit task.comesTo) fun d horderly hshows => ?_)
  have hlength : d.tasks.length = l.tasks.length := by rw [hshows.tasks, List.length_map]
  refine ⟨?_, ?_, ?_, ?_⟩
  · simp [Desk.happen, Desk.pass, Pool.step, hshows.pool, hlength]
  · simp [Desk.happen, hshows.tasks]
  · simp [Pool.running_arrive, hshows.ends]
  · have hreplies : (d.happen (.submit task.comesTo)).replies = d.replies := by
      simp [Desk.happen, Desk.pass, Pool.step, Desk.reply?]
    rw [hreplies]
    refine hshows.replies.trans (List.map_congr_left fun e he => ?_)
    have hmem : e.1 ∈ List.range d.tasks.length :=
      horderly.places.mem_iff.mp (List.mem_append_right _ (List.mem_map_of_mem he))
    have hlt : e.1 < l.tasks.length := hlength ▸ List.mem_range.mp hmem
    simp [nameOf, List.getElem?_append_left hlt]

theorem Shown.shutDown (h : l.Shown maxWorkers) : l.shutDown.Shown maxWorkers :=
  Shown.settle (h.happen .shutDown fun _ _ hshows =>
    hshows.silent (s := .shutDown) rfl rfl rfl rfl hshows.ends rfl)

/-- The clock moves. -/
theorem Shown.later (h : l.Shown maxWorkers) (now : Nat) : { l with now }.Shown maxWorkers := by
  obtain ⟨past, hshows⟩ := h
  exact ⟨past, hshows.pool, hshows.tasks, hshows.ends, hshows.replies⟩

theorem Shown.runUntil (enough : Pool → Bool) (moment : Nat) (fuel : Nat) :
    ∀ {l : PoolTimeline}, l.Shown maxWorkers →
      (l.runUntil enough moment fuel).Shown maxWorkers := by
  induction fuel with
  | zero => exact fun h => h
  | succ fuel ih =>
    intro l h
    unfold PoolTimeline.runUntil
    split
    · exact h
    · split
      · split
        · exact ih (h.later _).settle
        · exact h.later _
      · exact h.later _

theorem Shown.wait (h : l.Shown maxWorkers) (ms : Nat) : (l.wait ms).Shown maxWorkers :=
  h.runUntil _ _ _

theorem Shown.drain (h : l.Shown maxWorkers) : l.drain.2.Shown maxWorkers := by
  unfold PoolTimeline.drain
  simp only
  split
  · exact h.runUntil _ _ _
  · exact (h.runUntil _ _ _).wait _

/-- The timelines that the operations of a test lead to. -/
inductive Reached (maxWorkers : Nat) : PoolTimeline → Prop where
  | create : Reached maxWorkers (create maxWorkers)
  | submit {l : PoolTimeline} (task : PoolTask) (h : Reached maxWorkers l) :
    Reached maxWorkers (l.submit task)
  | shutDown {l : PoolTimeline} (h : Reached maxWorkers l) : Reached maxWorkers l.shutDown
  | wait {l : PoolTimeline} (ms : Nat) (h : Reached maxWorkers l) : Reached maxWorkers (l.wait ms)
  | drain {l : PoolTimeline} (h : Reached maxWorkers l) : Reached maxWorkers l.drain.2

/-- **What is shown in the course of time is what can be at a desk.** -/
theorem Reached.shown (h : Reached maxWorkers l) : l.Shown maxWorkers := by
  induction h with
  | create => exact shown_create
  | submit task _ ih => exact ih.submit task
  | shutDown _ ih => exact ih.shutDown
  | wait ms _ ih => exact ih.wait ms
  | drain _ ih => exact ih.drain

end PoolTimeline

end Converge.Testkit
