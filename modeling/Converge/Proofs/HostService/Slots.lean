import Mathlib.Data.List.Perm.Basic
import Mathlib.Data.List.Range
import Converge.Testkit.PoolTimeline

/-!
# Slots and submissions of a pool

Submissions come in, get slots, start their tasks, are turned away and come to their ends in any
order, and the pool may be shut down at any time.

* `Pool.slots`: the slots that are free or taken; no step changes their number (`slots_step`);
* `Pool.places`: the submissions that a pool knows; a step adds one that comes in and takes away one
  that comes out (`places_step`);
* `Desk`: a pool with the tasks that were submitted to it, the replies that submissions have got, and
  whether somebody who waited for the end of the work was let go; `Desk.after` is a desk behind any
  list of steps, of which those that are not possible change nothing;
* **`Orderly`** holds behind all of them (`orderly_after`); behind the shutdown nothing starts any more
  (`running_happen`). **`pool_orderly`** puts the two together.
-/

namespace Converge.HostService

open Testkit (shuttingDown brokenDown)

/-! ## 1. Slots -/

namespace Pool

variable {p p' : Pool} {k : Nat}

/-- The slots that are free, that belong to submissions about to start, and that tasks run in. -/
def slots (p : Pool) : Nat := p.running.length + p.granted.length + p.available

/-- The submissions that wait, those that are about to start, and those whose tasks run. -/
def places (p : Pool) : List Nat := p.waiting ++ p.granted ++ p.running

/-- A slot that comes back is a slot more, and moves one submission at most. -/
theorem slots_giveBack (p : Pool) : p.giveBack.slots = p.slots + 1 := by
  unfold giveBack
  split
  · simp only [slots]
    omega
  · simp only [slots, List.length_append, List.length_singleton]
    omega

theorem running_giveBack (p : Pool) : p.giveBack.running = p.running := by
  unfold giveBack
  split <;> rfl

theorem closed_giveBack (p : Pool) : p.giveBack.closed = p.closed := by
  unfold giveBack
  split <;> rfl

theorem places_giveBack (p : Pool) : p.giveBack.places.Perm p.places := by
  unfold giveBack
  split
  · exact .refl _
  · rename_i first waiting hwaiting
    simp only [places, hwaiting, List.append_assoc, List.cons_append, List.nil_append]
    exact (List.perm_middle.append_left waiting).trans List.perm_middle

/-- A submission that leaves the queue, its slot or its task. -/
theorem perm_places_erase {l : List Nat} (h : k ∈ l) (first later : List Nat) :
    (k :: (first ++ l.erase k ++ later)).Perm (first ++ l ++ later) := by
  have hl : (k :: l.erase k).Perm l := (List.perm_cons_erase h).symm
  have hmiddle : (k :: (first ++ l.erase k)).Perm (first ++ l) :=
    List.perm_middle.symm.trans (hl.append_left first)
  exact hmiddle.append_right later

theorem slots_arrive (p : Pool) (k : Nat) : (p.arrive k).slots = p.slots := by
  unfold arrive
  split
  · rfl
  · simp only [slots, List.length_append, List.length_singleton]
    omega

theorem places_arrive (p : Pool) (k : Nat) : (p.arrive k).places.Perm (p.places ++ [k]) := by
  unfold arrive
  split
  · simp only [places, List.append_assoc]
    exact List.perm_append_comm.append_left p.waiting |>.trans (by simp)
  · simp only [places, List.append_assoc]
    exact (List.perm_append_comm.append_left p.granted).append_left p.waiting |>.trans (by simp)

theorem running_arrive (p : Pool) (k : Nat) : (p.arrive k).running = p.running := by
  unfold arrive
  split <;> rfl

theorem closed_arrive (p : Pool) (k : Nat) : (p.arrive k).closed = p.closed := by
  unfold arrive
  split <;> rfl

theorem start_of_open (hopen : p.closed = false) :
    p.start k = { p with granted := p.granted.erase k, running := p.running ++ [k] } := by
  simp [start, hopen]

theorem start_of_closed (hclosed : p.closed = true) :
    p.start k = { p with granted := p.granted.erase k }.giveBack := by
  simp [start, hclosed]

theorem slots_start (h : k ∈ p.granted) : (p.start k).slots = p.slots := by
  have hlength := List.length_erase_of_mem h
  have hpos := List.length_pos_of_mem h
  cases hclosed : p.closed with
  | true =>
    rw [start_of_closed hclosed, slots_giveBack]
    simp only [slots]
    omega
  | false =>
    rw [start_of_open hclosed]
    simp only [slots, List.length_append, List.length_singleton]
    omega

/-- A submission that starts its task is still there. -/
theorem places_start (h : k ∈ p.granted) (hopen : p.closed = false) :
    (p.start k).places.Perm p.places := by
  rw [start_of_open hopen]
  simp only [places]
  rw [← List.append_assoc]
  exact (List.perm_append_singleton k _).trans (perm_places_erase h p.waiting p.running)

/-- In a pool that was shut down it is turned away. -/
theorem places_start_of_closed (h : k ∈ p.granted) (hclosed : p.closed = true) :
    (k :: (p.start k).places).Perm p.places := by
  rw [start_of_closed hclosed]
  exact ((places_giveBack _).cons k).trans (perm_places_erase h p.waiting p.running)

theorem slots_turnAway (p : Pool) (k : Nat) : (p.turnAway k).slots = p.slots := rfl

theorem places_turnAway (h : k ∈ p.waiting) : (k :: (p.turnAway k).places).Perm p.places := by
  simp only [turnAway, places, List.append_assoc]
  exact perm_places_erase h [] (p.granted ++ p.running)

theorem slots_finish (h : k ∈ p.running) : (p.finish k).slots = p.slots := by
  have hlength := List.length_erase_of_mem h
  have hpos := List.length_pos_of_mem h
  unfold finish
  rw [slots_giveBack]
  simp only [slots]
  omega

theorem places_finish (h : k ∈ p.running) : (k :: (p.finish k).places).Perm p.places := by
  unfold finish
  refine ((places_giveBack _).cons k).trans ?_
  simpa [places] using perm_places_erase h (p.waiting ++ p.granted) []

/-- What a step is, if it is possible. -/
theorem step_cases {s : Step} (h : p.step s = some p') :
    (∃ k, s = .arrive k ∧ p' = p.arrive k) ∨
      (∃ k, s = .start k ∧ k ∈ p.granted ∧ p' = p.start k) ∨
      (∃ k, s = .turnAway k ∧ p.closed = true ∧ k ∈ p.waiting ∧ p' = p.turnAway k) ∨
      (∃ k, s = .finish k ∧ k ∈ p.running ∧ p' = p.finish k) ∨
      s = .shutDown ∧ p' = p.shutDown := by
  cases s with
  | arrive k =>
    cases h
    exact .inl ⟨k, rfl, rfl⟩
  | start k =>
    obtain ⟨hk, he⟩ := Option.ite_none_right_eq_some.mp h
    exact .inr (.inl ⟨k, rfl, hk, (Option.some.inj he).symm⟩)
  | turnAway k =>
    obtain ⟨⟨hclosed, hk⟩, he⟩ := Option.ite_none_right_eq_some.mp h
    exact .inr (.inr (.inl ⟨k, rfl, hclosed, hk, (Option.some.inj he).symm⟩))
  | finish k =>
    obtain ⟨hk, he⟩ := Option.ite_none_right_eq_some.mp h
    exact .inr (.inr (.inr (.inl ⟨k, rfl, hk, (Option.some.inj he).symm⟩)))
  | shutDown =>
    cases h
    exact .inr (.inr (.inr (.inr ⟨rfl, rfl⟩)))

/-- **No step makes or loses a slot.** -/
theorem slots_step {s : Step} (h : p.step s = some p') : p'.slots = p.slots := by
  obtain ⟨k, -, rfl⟩ | ⟨k, -, hk, rfl⟩ | ⟨k, -, -, -, rfl⟩ | ⟨k, -, hk, rfl⟩ | ⟨-, rfl⟩ := step_cases h
  · exact slots_arrive p k
  · exact slots_start hk
  · exact slots_turnAway p k
  · exact slots_finish hk
  · rfl

/-- A pool is shut down by the shutdown, and by nothing else. -/
theorem closed_step {s : Step} (h : p.step s = some p') :
    p'.closed = true ↔ p.closed = true ∨ s = .shutDown := by
  obtain ⟨k, rfl, rfl⟩ | ⟨k, rfl, -, rfl⟩ | ⟨k, rfl, -, -, rfl⟩ | ⟨k, rfl, -, rfl⟩ | ⟨rfl, rfl⟩ :=
    step_cases h
  · simp [closed_arrive]
  · cases hclosed : p.closed with
    | true => simp [start_of_closed hclosed, closed_giveBack, hclosed]
    | false => simp [start_of_open hclosed, hclosed]
  · simp [turnAway]
  · simp [finish, closed_giveBack]
  · simp [shutDown]

/-- **In a pool that was shut down nothing starts.** -/
theorem running_step {s : Step} (h : p.step s = some p') (hclosed : p.closed = true) :
    p'.running.Sublist p.running := by
  obtain ⟨k, -, rfl⟩ | ⟨k, -, -, rfl⟩ | ⟨k, -, -, -, rfl⟩ | ⟨k, -, -, rfl⟩ | ⟨-, rfl⟩ := step_cases h
  · exact (running_arrive p k).symm ▸ .refl _
  · rw [start_of_closed hclosed, running_giveBack]
  · exact .refl _
  · unfold finish
    rw [running_giveBack]
    exact List.erase_sublist
  · exact .refl _

/-- No submission waits while a slot is free. -/
def NoneIdle (p : Pool) : Prop := p.available ≠ 0 → p.waiting = []

theorem noneIdle_giveBack (h : p.NoneIdle) : p.giveBack.NoneIdle := by
  unfold giveBack
  split
  · rename_i hwaiting
    exact fun _ => hwaiting
  · rename_i first waiting hwaiting
    intro hfree
    have := h hfree
    rw [hwaiting] at this
    cases this

theorem noneIdle_step {s : Step} (h : p.step s = some p') (hidle : p.NoneIdle) : p'.NoneIdle := by
  obtain ⟨k, -, rfl⟩ | ⟨k, -, -, rfl⟩ | ⟨k, -, -, -, rfl⟩ | ⟨k, -, -, rfl⟩ | ⟨-, rfl⟩ := step_cases h
  · unfold arrive
    split
    · rename_i hnone
      exact fun hfree => absurd hnone hfree
    · rename_i hfree
      exact fun _ => hidle hfree
  · cases hclosed : p.closed with
    | true =>
      rw [start_of_closed hclosed]
      exact noneIdle_giveBack hidle
    | false =>
      rw [start_of_open hclosed]
      exact hidle
  · intro hfree
    have hnil : p.waiting = [] := hidle hfree
    simp [turnAway, hnil]
  · exact noneIdle_giveBack hidle
  · exact hidle

end Pool

/-! ## 2. Submissions and their replies -/

/-- A pool and what is known about its submissions. A submission is known by its place among the
    tasks. -/
structure Desk (α : Type) where
  pool : Pool
  /-- What the submitted tasks come to: a result, or a breakdown with its message. -/
  tasks : List (Except String α)
  /-- The replies that submissions have got. -/
  replies : List (Nat × Except Error α)
  /-- Somebody waited until the work was done, and was let go. -/
  released : Bool

/-- What can happen at a desk. -/
inductive DeskStep (α : Type) where
  | submit (task : Except String α)
  | start (k : Nat)
  | turnAway (k : Nat)
  | finish (k : Nat)
  | shutDown
  /-- Who waits until the work is done is let go. -/
  | release

namespace Desk

variable {α : Type}

/-- A desk to which nothing was submitted yet. -/
def fresh (maxWorkers : Nat) : Desk α := ⟨.create maxWorkers, [], [], false⟩

/-- The reply to a submission whose task has ended. -/
def outcomeOf : Except String α → Except Error α
  | .ok result => .ok result
  | .error message => .error (brokenDown message)

/-- The reply that a submission gets with a step of the pool. -/
def reply? (d : Desk α) : Pool.Step → Option (Nat × Except Error α)
  | .start k => if d.pool.closed then some (k, .error shuttingDown) else none
  | .turnAway k => some (k, .error shuttingDown)
  | .finish k => d.tasks[k]?.map fun task => (k, outcomeOf task)
  | .arrive _ | .shutDown => none

/-- A step of the pool; one that is not possible changes nothing. -/
def pass (d : Desk α) (s : Pool.Step) : Desk α :=
  match d.pool.step s with
  | none => d
  | some pool => { d with pool, replies := d.replies ++ (d.reply? s).toList }

/-- **What happens at a desk.** -/
def happen (d : Desk α) : DeskStep α → Desk α
  | .submit task => { d.pass (.arrive d.tasks.length) with tasks := d.tasks ++ [task] }
  | .start k => d.pass (.start k)
  | .turnAway k => d.pass (.turnAway k)
  | .finish k => d.pass (.finish k)
  | .shutDown => d.pass .shutDown
  | .release => if d.pool.isDrained then { d with released := true } else d

/-- A new desk behind all that has happened. -/
def after (maxWorkers : Nat) (past : List (DeskStep α)) : Desk α :=
  past.foldl happen (fresh maxWorkers)

/-- What a reply may be: the result of the submission's own task, the news that this task broke down,
    or a refusal, which only a pool that was shut down gives. -/
inductive Replied (d : Desk α) : Nat × Except Error α → Prop where
  | result {k : Nat} {a : α} (h : d.tasks[k]? = some (.ok a)) : Replied d (k, .ok a)
  | broken {k : Nat} {message : String} (h : d.tasks[k]? = some (.error message)) :
    Replied d (k, .error (brokenDown message))
  | refused {k : Nat} (h : d.pool.closed = true) : Replied d (k, .error shuttingDown)

/-- What holds of a desk at every moment. -/
structure Orderly (maxWorkers : Nat) (d : Desk α) : Prop where
  /-- Every slot is free, or belongs to a submission about to start, or to a task that runs. -/
  slots : d.pool.slots = max 1 maxWorkers
  noneIdle : d.pool.NoneIdle
  /-- Every submission waits, has a slot, runs, or has its reply; only one of these, and once. -/
  places : (d.pool.places ++ d.replies.map (·.1)).Perm (List.range d.tasks.length)
  replied : ∀ entry ∈ d.replies, d.Replied entry
  /-- Who waited until the work was done was not let go too early. -/
  released : d.released = true → d.pool.closed = true ∧ d.pool.running = []

theorem orderly_fresh (maxWorkers : Nat) : (fresh maxWorkers : Desk α).Orderly maxWorkers where
  slots := by simp [fresh, Pool.create, Pool.slots]
  noneIdle := fun _ => rfl
  places := .refl _
  replied := nofun
  released := nofun

theorem Replied.grow {d d' : Desk α} {entry : Nat × Except Error α} (h : d.Replied entry)
    (htasks : ∀ (k : Nat) task, d.tasks[k]? = some task → d'.tasks[k]? = some task)
    (hclosed : d.pool.closed = true → d'.pool.closed = true) : d'.Replied entry := by
  cases h with
  | result h => exact .result (htasks _ _ h)
  | broken h => exact .broken (htasks _ _ h)
  | refused h => exact .refused (hclosed h)

/-- A step that is possible gives a reply to exactly the submission that it takes out of the pool. -/
theorem places_step {d : Desk α} {pool : Pool} {s : Pool.Step} (h : d.pool.step s = some pool)
    (hs : ∀ k, s ≠ .arrive k) (hlt : ∀ k ∈ d.pool.places, k < d.tasks.length) :
    ((d.reply? s).toList.map (·.1) ++ pool.places).Perm d.pool.places := by
  obtain ⟨k, rfl, -⟩ | ⟨k, rfl, hk, rfl⟩ | ⟨k, rfl, -, hk, rfl⟩ | ⟨k, rfl, hk, rfl⟩ | ⟨rfl, rfl⟩ :=
    Pool.step_cases h
  · exact absurd rfl (hs k)
  · cases hclosed : d.pool.closed with
    | true => simpa [reply?, hclosed] using Pool.places_start_of_closed hk hclosed
    | false => simpa [reply?, hclosed] using Pool.places_start hk hclosed
  · simpa [reply?] using Pool.places_turnAway hk
  · have hthere : k < d.tasks.length := hlt k (List.mem_append_right _ hk)
    simpa [reply?, List.getElem?_eq_getElem hthere] using Pool.places_finish hk
  · exact .refl _

/-- The reply that a step gives is one that may be given. -/
theorem replied_step {d : Desk α} {pool : Pool} {s : Pool.Step} (h : d.pool.step s = some pool) :
    ∀ entry ∈ (d.reply? s).toList, d.Replied entry := by
  intro entry hentry
  rw [Option.mem_toList] at hentry
  obtain ⟨k, rfl, -⟩ | ⟨k, rfl, hk, -⟩ | ⟨k, rfl, hclosed, hk, -⟩ | ⟨k, rfl, hk, -⟩ | ⟨rfl, -⟩ :=
    Pool.step_cases h
  · cases hentry
  · obtain ⟨hclosed, he⟩ := Option.ite_none_right_eq_some.mp hentry
    cases he
    exact .refused hclosed
  · cases hentry
    exact .refused hclosed
  · obtain ⟨task, htask, rfl⟩ := Option.map_eq_some_iff.mp hentry
    cases task with
    | ok a => exact .result htask
    | error message => exact .broken htask
  · cases hentry

theorem Orderly.lt_of_mem {maxWorkers : Nat} {d : Desk α} (h : d.Orderly maxWorkers) :
    ∀ k ∈ d.pool.places, k < d.tasks.length := fun _ hk =>
  List.mem_range.mp (h.places.mem_iff.mp (List.mem_append_left _ hk))

/-- A step of one submission, or the shutdown. -/
theorem Orderly.pass {maxWorkers : Nat} {d : Desk α} (h : d.Orderly maxWorkers) {s : Pool.Step}
    (hs : ∀ k, s ≠ .arrive k) : (d.pass s).Orderly maxWorkers := by
  unfold Desk.pass
  cases hstep : d.pool.step s with
  | none => exact h
  | some pool =>
    have hclosed : d.pool.closed = true → pool.closed = true := fun hc =>
      (Pool.closed_step hstep).mpr (.inl hc)
    exact {
      slots := (Pool.slots_step hstep).trans h.slots
      noneIdle := Pool.noneIdle_step hstep h.noneIdle
      places := by
        have hmove := places_step hstep hs h.lt_of_mem
        refine List.Perm.trans ?_ h.places
        simp only [List.map_append, ← List.append_assoc]
        refine List.perm_append_comm.trans ?_
        rw [← List.append_assoc]
        exact hmove.append_right _
      replied := fun entry hentry => by
        rcases List.mem_append.mp hentry with hentry | hentry
        · exact (h.replied entry hentry).grow (fun _ _ ht => ht) hclosed
        · exact (replied_step hstep entry hentry).grow (fun _ _ ht => ht) hclosed
      released := fun hreleased => by
        obtain ⟨hc, hrunning⟩ := h.released hreleased
        have hsub := Pool.running_step hstep hc
        rw [hrunning] at hsub
        exact ⟨hclosed hc, List.sublist_nil.mp hsub⟩ }

theorem Orderly.submit {maxWorkers : Nat} {d : Desk α} (h : d.Orderly maxWorkers)
    (task : Except String α) : (d.happen (.submit task)).Orderly maxWorkers where
  slots := (Pool.slots_arrive d.pool _).trans h.slots
  noneIdle := Pool.noneIdle_step (s := .arrive d.tasks.length) rfl h.noneIdle
  places := by
    have harrive := Pool.places_arrive d.pool d.tasks.length
    rw [happen, Desk.pass]
    simp only [Pool.step, reply?, Option.toList_none, List.append_nil, List.length_append,
      List.length_singleton, List.range_succ]
    refine (harrive.append_right _).trans ?_
    rw [List.append_assoc]
    refine (List.perm_append_comm.append_left _).trans ?_
    rw [← List.append_assoc]
    exact h.places.append_right _
  replied := fun entry hentry => by
    have hentry : entry ∈ d.replies := by simpa [happen, Desk.pass, Pool.step, reply?] using hentry
    refine (h.replied entry hentry).grow (fun _ _ ht => ?_) fun hc =>
      (Pool.closed_arrive d.pool d.tasks.length).trans hc
    obtain ⟨hk, -⟩ := List.getElem?_eq_some_iff.mp ht
    rw [happen]
    simp only
    rw [List.getElem?_append_left hk, ht]
  released := fun hreleased => by
    obtain ⟨hc, hrunning⟩ := h.released hreleased
    exact ⟨(Pool.closed_arrive d.pool _).trans hc, (Pool.running_arrive d.pool _).trans hrunning⟩

/-- **Whatever happens at an orderly desk leaves it orderly.** -/
theorem Orderly.happen {maxWorkers : Nat} {d : Desk α} (h : d.Orderly maxWorkers) :
    ∀ e : DeskStep α, (d.happen e).Orderly maxWorkers
  | .submit task => h.submit task
  | .start _ => h.pass nofun
  | .turnAway _ => h.pass nofun
  | .finish _ => h.pass nofun
  | .shutDown => h.pass (s := .shutDown) fun k hk => nomatch hk
  | .release => by
    rw [Desk.happen]
    split
    · rename_i hdrained
      obtain ⟨hc, hrunning⟩ := Bool.and_eq_true_iff.mp hdrained
      exact { h with
        replied := fun entry hentry => (h.replied entry hentry).grow (fun _ _ ht => ht) id
        released := fun _ => ⟨hc, List.isEmpty_iff.mp hrunning⟩ }
    · exact h

theorem after_concat (maxWorkers : Nat) (past : List (DeskStep α)) (e : DeskStep α) :
    after maxWorkers (past ++ [e]) = (after maxWorkers past).happen e := by
  simp [after]

theorem orderly_after (maxWorkers : Nat) (past : List (DeskStep α)) :
    (after maxWorkers past).Orderly maxWorkers := by
  induction past using List.reverseRecOn with
  | nil => exact orderly_fresh maxWorkers
  | append_singleton past e ih =>
    rw [after_concat]
    exact ih.happen e

/-! ## 3. The shutdown -/

theorem closed_pass (d : Desk α) (s : Pool.Step) :
    (d.pass s).pool.closed = true ↔ d.pool.closed = true ∨ s = .shutDown := by
  unfold Desk.pass
  cases hstep : d.pool.step s with
  | some pool => exact Pool.closed_step hstep
  | none =>
    refine (or_iff_left ?_).symm
    rintro rfl
    cases hstep

theorem closed_happen (d : Desk α) (e : DeskStep α) :
    (d.happen e).pool.closed = true ↔ d.pool.closed = true ∨ e = .shutDown := by
  cases e with
  | submit task => simp [happen, closed_pass]
  | start k => simp [happen, closed_pass]
  | turnAway k => simp [happen, closed_pass]
  | finish k => simp [happen, closed_pass]
  | shutDown => simp [happen, closed_pass]
  | release =>
    rw [happen]
    split <;> simp

/-- A pool is shut down if the shutdown is among what has happened. -/
theorem closed_after (maxWorkers : Nat) (past : List (DeskStep α)) :
    (after maxWorkers past).pool.closed = true ↔ .shutDown ∈ past := by
  induction past using List.reverseRecOn with
  | nil => simp [after, fresh, Pool.create]
  | append_singleton past e ih =>
    rw [after_concat, closed_happen, ih, List.mem_append, List.mem_singleton, eq_comm]

theorem running_pass {d : Desk α} (hclosed : d.pool.closed = true) (s : Pool.Step) :
    (d.pass s).pool.running.Sublist d.pool.running := by
  unfold Desk.pass
  cases hstep : d.pool.step s with
  | none => exact .refl _
  | some pool => exact Pool.running_step hstep hclosed

/-- **Behind the shutdown, whatever happens starts no task.** -/
theorem running_happen {d : Desk α} (hclosed : d.pool.closed = true) :
    ∀ e : DeskStep α, (d.happen e).pool.running.Sublist d.pool.running
  | .submit _ => running_pass hclosed _
  | .start _ => running_pass hclosed _
  | .turnAway _ => running_pass hclosed _
  | .finish _ => running_pass hclosed _
  | .shutDown => running_pass hclosed _
  | .release => by
    rw [happen]
    split <;> exact .refl _

theorem running_after (maxWorkers : Nat) {past : List (DeskStep α)} (hclosed : .shutDown ∈ past)
    (later : List (DeskStep α)) :
    (after maxWorkers (past ++ later)).pool.running.Sublist (after maxWorkers past).pool.running := by
  induction later using List.reverseRecOn with
  | nil => rw [List.append_nil]
  | append_singleton later e ih =>
    rw [← List.append_assoc, after_concat]
    have hstill : (after maxWorkers (past ++ later)).pool.closed = true :=
      (closed_after maxWorkers _).mpr (List.mem_append_left _ hclosed)
    exact (running_happen hstill e).trans ih

/-- **A pool never runs more tasks than it has slots, loses no slot and no submission, and starts
    nothing behind the shutdown.** Whatever has happened at a desk, in any order: the slots that are
    free, the submissions about to start and the tasks that run are together as many as the pool was
    made for, and one if that was zero; every submission waits, is about to start, runs, or has its one
    reply, which is the result of its own task, the news that it broke down, or a refusal; behind the
    shutdown no task starts; and when somebody who waited for the end of the work is let go, no task
    runs, nor will one. -/
theorem pool_orderly (maxWorkers : Nat) (past later : List (DeskStep α)) :
    (after maxWorkers past).Orderly maxWorkers ∧
      (after maxWorkers past).pool.running.length ≤ max 1 maxWorkers ∧
      ((after maxWorkers past).pool.closed = true ↔ .shutDown ∈ past) ∧
      (.shutDown ∈ past →
        (after maxWorkers (past ++ later)).pool.running.Sublist (after maxWorkers past).pool.running) ∧
      ((after maxWorkers past).released = true →
        (after maxWorkers (past ++ later)).pool.running = []) := by
  have horderly := orderly_after maxWorkers past
  have hbound : (after maxWorkers past).pool.running.length ≤ max 1 maxWorkers := by
    have hslots := horderly.slots
    unfold Pool.slots at hslots
    omega
  refine ⟨horderly, hbound, closed_after maxWorkers past,
    fun h => running_after maxWorkers h later, fun h => ?_⟩
  obtain ⟨hclosed, hrunning⟩ := horderly.released h
  have hsub := running_after maxWorkers ((closed_after maxWorkers past).mp hclosed) later
  rw [hrunning] at hsub
  exact List.sublist_nil.mp hsub

end Desk

end Converge.HostService
