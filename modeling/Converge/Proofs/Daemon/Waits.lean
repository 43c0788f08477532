import Mathlib.Algebra.Order.Ring.Nat
import Mathlib.Data.List.DropRight
import Converge.Proofs.Daemon.Dialling

/-!
# The waits of a schedule, by their numbers

A schedule is asked for its next wait or set back to its beginning, any number of times and in any order.

* `Backoff.Call`, `Backoff.calls?`: a sequence of calls, with the answers to them;
* `Backoff.turn`: how many waits were told since the beginning, or since the schedule was last set back;
* `Backoff.wait`: the wait of a number. Doubling step by step and cutting at each step is the same as
  doubling that often and cutting once: `next?_standing` is the one step, `calls?_start` the sequence;
* `Backoff.Numbered`: what is asked of the answers to a sequence;
* **`waits_by_number`**: the answers to every sequence are as asked, if twice the longest wait fits the
  clock.
-/

namespace Converge

/-! ## 1. The shorter and the longer span -/

namespace Duration

theorem nanos_min (a b : Duration) : (Duration.min a b).nanos = min a.nanos b.nanos := by
  unfold Duration.min
  split
  · rename_i h
    exact (min_eq_left h).symm
  · rename_i h
    exact (min_eq_right (Nat.le_of_not_le h)).symm

theorem nanos_max (a b : Duration) : (Duration.max a b).nanos = max a.nanos b.nanos := by
  unfold Duration.max
  split
  · rename_i h
    exact (max_eq_right h).symm
  · rename_i h
    exact (max_eq_left (Nat.le_of_not_le h)).symm

theorem ext_nanos {a b : Duration} (h : a.nanos = b.nanos) : a = b := by
  cases a
  cases b
  exact congrArg Duration.mk h

end Duration

namespace Backoff

/-! ## 2. Calls -/

/-- What a schedule is asked for. -/
inductive Call where
  | next
  | reset
deriving DecidableEq, Repr

/-- The answer to a call, which is a wait or nothing, and the schedule behind it; `none` if the call
    left the width of the clock. -/
def call? (b : Backoff) : Call → Option (Option Duration × Backoff)
  | .next => b.next?.map fun told => (some told.1, told.2)
  | .reset => some (none, b.reset)

/-- The answers to a sequence of calls, in order, and the schedule behind it. -/
def calls? (b : Backoff) : List Call → Option (List (Option Duration) × Backoff)
  | [] => some ([], b)
  | c :: cs => (b.call? c).bind fun told =>
      (calls? told.2 cs).map fun more => (told.1 :: more.1, more.2)

theorem calls?_append (b : Backoff) (past rest : List Call) :
    b.calls? (past ++ rest) = (b.calls? past).bind fun told =>
      (told.2.calls? rest).map fun more => (told.1 ++ more.1, more.2) := by
  induction past generalizing b with
  | nil => simp [calls?]
  | cons c past ih =>
    rw [List.cons_append, calls?, calls?]
    cases b.call? c with
    | none => rfl
    | some told =>
      simp only [Option.bind_some, ih]
      cases told.2.calls? past with
      | none => rfl
      | some more => simp [Function.comp_def]

/-- How many waits were told since the beginning, or since the schedule was last set back. -/
def turn (past : List Call) : Nat := (past.rtakeWhile (· == .next)).length

@[simp] theorem turn_nil : turn [] = 0 := rfl

@[simp] theorem turn_concat_next (past : List Call) : turn (past ++ [.next]) = turn past + 1 := by
  unfold turn
  rw [List.rtakeWhile_concat_pos _ _ _ rfl, List.length_append]
  rfl

@[simp] theorem turn_concat_reset (past : List Call) : turn (past ++ [.reset]) = 0 := by
  unfold turn
  rw [List.rtakeWhile_concat_neg _ _ _ (by decide)]
  rfl

/-- Where the schedule is not set back, the numbers go up. -/
theorem turn_append (past : List Call) {between : List Call} (h : .reset ∉ between) :
    turn (past ++ between) = turn past + between.length := by
  induction between using List.reverseRecOn with
  | nil => simp
  | append_singleton between c ih =>
    simp only [List.mem_append, List.mem_singleton, not_or] at h
    obtain ⟨hbetween, hc⟩ := h
    cases c with
    | next => rw [← List.append_assoc, turn_concat_next, ih hbetween, List.length_append,
        List.length_singleton, Nat.add_assoc]
    | reset => exact absurd rfl hc

/-! ## 3. The wait of a number -/

variable (initial longest : Duration)

/-- **The wait of a number**, counted from zero: the first wait doubled so often, and cut to the longest
    wait. The longest wait is never below the first. -/
def wait (n : Nat) : Duration :=
  Duration.min ⟨initial.nanos * 2 ^ n⟩ (Duration.max initial longest)

theorem nanos_wait (n : Nat) : (wait initial longest n).nanos =
    min (initial.nanos * 2 ^ n) (Max.max initial.nanos longest.nanos) := by
  rw [wait, Duration.nanos_min, Duration.nanos_max]

theorem initial_le_wait (n : Nat) : initial ≤ wait initial longest n := by
  show initial.nanos ≤ (wait initial longest n).nanos
  rw [nanos_wait]
  exact le_min (Nat.le_mul_of_pos_right _ (Nat.two_pow_pos n)) (le_max_left _ _)

theorem wait_le_longest (n : Nat) : wait initial longest n ≤ Duration.max initial longest := by
  show (wait initial longest n).nanos ≤ (Duration.max initial longest).nanos
  rw [nanos_wait, Duration.nanos_max]
  exact min_le_right _ _

/-- No wait is shorter than one before it. -/
theorem wait_mono {n m : Nat} (h : n ≤ m) : wait initial longest n ≤ wait initial longest m := by
  show (wait initial longest n).nanos ≤ (wait initial longest m).nanos
  rw [nanos_wait, nanos_wait]
  exact min_le_min_right _ (Nat.mul_le_mul_left _ (Nat.pow_le_pow_right (by decide) h))

/-- The schedule when a number of waits were told. -/
def standing (n : Nat) : Backoff :=
  ⟨initial, Duration.max longest initial, wait initial longest n⟩

theorem start_eq : start initial longest = standing initial longest 0 := by
  have hfirst : initial = wait initial longest 0 := by
    apply Duration.ext_nanos
    rw [nanos_wait, Nat.pow_zero, Nat.mul_one]
    exact (min_eq_left (le_max_left _ _)).symm
  unfold start standing
  rw [← hfirst]

/-- The answer to a call behind some others. -/
def answer (past : List Call) : Call → Option Duration
  | .next => some (wait initial longest (turn past))
  | .reset => none

theorem reset_standing (n : Nat) :
    (standing initial longest n).reset = standing initial longest 0 := by
  rw [← start_eq]
  rfl

section Fits

variable {initial longest}
variable (hfits : Duration.Representable ⟨2 * (Duration.max initial longest).nanos⟩)
include hfits

/-- **One step**: a wait that was cut is cut again when it is doubled, and one that was not cut is
    doubled as its number says. -/
theorem next?_standing (n : Nat) : (standing initial longest n).next? =
    some (wait initial longest n, standing initial longest (n + 1)) := by
  have hlongest : 2 * (wait initial longest n).nanos < Duration.limit :=
    (Nat.mul_le_mul_left 2 (wait_le_longest initial longest n)).trans_lt hfits
  have htwice : (wait initial longest n).double? = some ⟨2 * (wait initial longest n).nanos⟩ :=
    if_pos hlongest
  have hcut : Duration.min ⟨2 * (wait initial longest n).nanos⟩ (Duration.max longest initial) =
      wait initial longest (n + 1) := by
    apply Duration.ext_nanos
    rw [Duration.nanos_min, Duration.nanos_max, nanos_wait, nanos_wait, Nat.pow_succ,
      ← Nat.mul_assoc]
    dsimp only
    omega
  unfold next? standing
  rw [htwice, Option.map_some, hcut]

theorem skip?_start (n : Nat) :
    (start initial longest).skip? n = some (standing initial longest n) := by
  induction n with
  | zero => rw [skip?, start_eq]
  | succ n ih =>
    rw [skip?, ih, Option.bind_some, next?_standing hfits]
    rfl

/-- The pauses of a daemon that connects are the waits by their numbers. -/
theorem delay?_start (n : Nat) :
    (start initial longest).delay? n = some (wait initial longest n) := by
  rw [delay?, skip?_start hfits, Option.bind_some, next?_standing hfits]
  rfl

theorem call?_standing (past : List Call) (c : Call) :
    (standing initial longest (turn past)).call? c =
      some (answer initial longest past c, standing initial longest (turn (past ++ [c]))) := by
  cases c with
  | next =>
    rw [call?, next?_standing hfits, turn_concat_next]
    rfl
  | reset =>
    rw [call?, reset_standing, turn_concat_reset]
    rfl

/-- **A sequence of calls** leaves the clock nowhere, and the schedule stands where the number says. -/
theorem calls?_start (calls : List Call) : ∃ answers, answers.length = calls.length ∧
    (start initial longest).calls? calls = some (answers, standing initial longest (turn calls)) := by
  induction calls using List.reverseRecOn with
  | nil =>
    refine ⟨[], rfl, ?_⟩
    rw [start_eq]
    rfl
  | append_singleton past c ih =>
    obtain ⟨answers, hlength, hpast⟩ := ih
    refine ⟨answers ++ [answer initial longest past c], by simp [hlength], ?_⟩
    rw [calls?_append, hpast, Option.bind_some, calls?, call?_standing hfits]
    rfl

theorem getElem?_answers {past rest : List Call} {c : Call} {answers : List (Option Duration)}
    {b : Backoff} (h : (start initial longest).calls? (past ++ c :: rest) = some (answers, b)) :
    answers[past.length]? = some (answer initial longest past c) := by
  obtain ⟨before, hlength, hpast⟩ := calls?_start hfits past
  rw [calls?_append, hpast, Option.bind_some, calls?, call?_standing hfits, Option.bind_some] at h
  obtain ⟨more, hmore, he⟩ := Option.map_eq_some_iff.mp h
  obtain ⟨later, -, rfl⟩ := Option.map_eq_some_iff.mp hmore
  cases he
  rw [← hlength, List.getElem?_append_right (Nat.le_refl _), Nat.sub_self]
  rfl

end Fits

/-! ## 4. The answers to a sequence -/

/-- What is asked of the answers to a sequence of calls. -/
structure Numbered (calls : List Call) (answers : List (Option Duration)) : Prop where
  length_eq : answers.length = calls.length
  /-- A wait is told by how many were told since the schedule was last set back. -/
  next : ∀ past rest, calls = past ++ .next :: rest →
    answers[past.length]? = some (some (wait initial longest (turn past)))
  reset : ∀ past rest, calls = past ++ .reset :: rest → answers[past.length]? = some none
  /-- Of two waits between which the schedule is not set back, the later is not the shorter. -/
  rising : ∀ past between rest, calls = past ++ .next :: (between ++ .next :: rest) →
    .reset ∉ between → ∃ earlier later, answers[past.length]? = some (some earlier) ∧
      answers[past.length + between.length + 1]? = some (some later) ∧ earlier ≤ later
  bounded : ∀ delay, some delay ∈ answers →
    initial ≤ delay ∧ delay ≤ Duration.max initial longest

variable {initial longest}

/-- The answers are as asked if each wait is told by its number. -/
theorem numbered_of_next {calls : List Call} {answers : List (Option Duration)}
    (hlength : answers.length = calls.length)
    (hnext : ∀ past rest, calls = past ++ .next :: rest →
      answers[past.length]? = some (some (wait initial longest (turn past))))
    (hreset : ∀ past rest, calls = past ++ .reset :: rest → answers[past.length]? = some none) :
    Numbered initial longest calls answers := by
  refine ⟨hlength, hnext, hreset, ?_, ?_⟩
  · intro past between rest hcalls hbetween
    have hmore : calls = (past ++ .next :: between) ++ .next :: rest := by simp [hcalls]
    have hlater := hnext _ _ hmore
    rw [turn_append past (by simpa using hbetween), List.length_append, List.length_cons,
      ← Nat.add_assoc] at hlater
    exact ⟨_, _, hnext past _ hcalls, hlater,
      wait_mono initial longest (Nat.le_add_right _ _)⟩
  · intro delay hmem
    obtain ⟨i, hi, hanswer⟩ := List.mem_iff_getElem.mp hmem
    have hi' : i < calls.length := hlength ▸ hi
    have hcalls : calls = calls.take i ++ calls[i] :: calls.drop (i + 1) := by simp
    have htake : (calls.take i).length = i := List.length_take_of_le (Nat.le_of_lt hi')
    -- the call at this place is no setting back, for that one has no wait for an answer
    cases hcall : calls[i] with
    | next =>
      have htold := hnext _ _ (hcall ▸ hcalls)
      rw [htake, List.getElem?_eq_getElem hi, hanswer] at htold
      obtain rfl := Option.some.inj (Option.some.inj htold)
      exact ⟨initial_le_wait initial longest _, wait_le_longest initial longest _⟩
    | reset =>
      have htold := hreset _ _ (hcall ▸ hcalls)
      rw [htake, List.getElem?_eq_getElem hi, hanswer] at htold
      cases Option.some.inj htold

/-- **Every sequence of calls is answered, and as asked**, if twice the longer of the first and the
    longest wait fits the clock. -/
theorem waits_by_number
    (hfits : Duration.Representable ⟨2 * (Duration.max initial longest).nanos⟩)
    (calls : List Call) : ∃ answers b, (start initial longest).calls? calls = some (answers, b) ∧
      Numbered initial longest calls answers := by
  obtain ⟨answers, hlength, hanswers⟩ := calls?_start hfits calls
  refine ⟨answers, _, hanswers, numbered_of_next hlength ?_ ?_⟩
  · intro past rest hcalls
    rw [hcalls] at hanswers
    exact getElem?_answers hfits hanswers
  · intro past rest hcalls
    rw [hcalls] at hanswers
    exact getElem?_answers hfits hanswers

/-- The third wait is cut, and the one behind it is the first again. -/
theorem waits_by_number_cut :
    Duration.Representable ⟨2 * (Duration.max (.ofSecs 3) (.ofSecs 7)).nanos⟩ ∧
    Numbered (.ofSecs 3) (.ofSecs 7) [.next, .next, .next, .reset, .next]
      [some (.ofSecs 3), some (.ofSecs 6), some (.ofSecs 7), none, some (.ofSecs 3)] := by
  have hfits : Duration.Representable ⟨2 * (Duration.max (.ofSecs 3) (.ofSecs 7)).nanos⟩ := by
    decide
  obtain ⟨answers, b, hcalls, hnumbered⟩ :=
    waits_by_number hfits [.next, .next, .next, .reset, .next]
  have htold : (start (.ofSecs 3) (.ofSecs 7)).calls? [.next, .next, .next, .reset, .next] =
      some ([some (.ofSecs 3), some (.ofSecs 6), some (.ofSecs 7), none, some (.ofSecs 3)],
        ⟨.ofSecs 3, .ofSecs 7, .ofSecs 6⟩) := by
    decide
  rw [htold] at hcalls
  cases hcalls
  exact ⟨hfits, hnumbered⟩

end Backoff

end Converge
