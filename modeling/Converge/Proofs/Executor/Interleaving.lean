import Converge.Proofs.Executor.Locality

/-!
# Any order of steps

The lanes of a batch under way come to the same reports and to the same commands on each resource,
in whatever order they move.

* `Lane.step_cases` is all that a step of a lane can be;
* `Lane.finish` is what is left of a lane when it runs to its end by itself; a step of the lane is
  the first piece of it (`Lane.finish_step`);
* `OnCourse` is the invariant: every lane, if it ran to its end from here, would come to the reports
  and the commands it would have come to from the beginning. **`OnCourse.step`**: a step of the lane
  itself is the first piece of what is left, and a step of another lane is on other resources;
* `exists_step`, `exists_end`: lanes never wait for each other without end.
-/

namespace Converge.Executor

variable {σ : Type} {ex : Executor σ} {log : σ → List CommandSpec}

/-! ## 1. What is left of a lane -/

namespace Lane

/-- Runs a lane to its end. -/
def finish (ex : Executor σ) (l : Lane) (s : σ) : Ran σ (List (Nat × DeltaReport)) :=
  match l.running with
  | none => (ex.runNumbered l.waiting s).andThen fun later s => .idle (l.finished ++ later) s
  | some c =>
    (ex.runActions (some c.id.full) c.spoiled c.todo s).andThen fun reports s =>
      (ex.runNumbered l.waiting s).andThen fun later s =>
        .idle (l.finished ++ (c.place, ⟨c.id, c.reports ++ reports⟩) :: later) s

/-- A lane that is over has nothing left. -/
theorem finish_of_isOver {l : Lane} (h : l.isOver = true) (s : σ) :
    l.finish ex s = .idle l.finished s := by
  obtain ⟨running, waiting, finished⟩ := l
  obtain ⟨hr, hw⟩ := Bool.and_eq_true_iff.mp h
  obtain rfl : running = none := Option.isNone_iff_eq_none.mp hr
  obtain rfl : waiting = [] := List.isEmpty_iff.mp hw
  show Ran.idle (finished ++ []) s = _
  rw [List.append_nil]

/-- All that a step of a lane can be: the beginning of a chain, its end, or one action of it. -/
theorem step_cases {l : Lane} {s : σ} {r : Ran σ Lane} (h : l.step ex s = some r) :
    (∃ i p rest finished, l = ⟨none, (i, p) :: rest, finished⟩ ∧
      r = .idle ⟨some ⟨i, p.delta.id, [], p.actions, []⟩, rest, finished⟩ s) ∨
    (∃ place id spoiled reports waiting finished,
      l = ⟨some ⟨place, id, spoiled, [], reports⟩, waiting, finished⟩ ∧
      r = .idle ⟨none, waiting, finished ++ [(place, ⟨id, reports⟩)]⟩ s) ∨
    (∃ place id spoiled a rest reports waiting finished,
      l = ⟨some ⟨place, id, spoiled, a :: rest, reports⟩, waiting, finished⟩ ∧
      r = (ex.act (some id.full) spoiled a s).andThen fun outcome s =>
        .idle ⟨some ⟨place, id, spoil spoiled a outcome, rest, reports ++ [⟨a, outcome⟩]⟩,
          waiting, finished⟩ s) := by
  obtain ⟨running, waiting, finished⟩ := l
  cases running with
  | none =>
    cases waiting with
    | nil => cases h
    | cons n rest => exact .inl ⟨n.1, n.2, rest, finished, rfl, (Option.some.inj h).symm⟩
  | some c =>
    obtain ⟨place, id, spoiled, todo, reports⟩ := c
    cases todo with
    | nil =>
      exact .inr (.inl ⟨place, id, spoiled, reports, waiting, finished, rfl,
        (Option.some.inj h).symm⟩)
    | cons a rest =>
      exact .inr (.inr ⟨place, id, spoiled, a, rest, reports, waiting, finished, rfl,
        (Option.some.inj h).symm⟩)

/-- **A step is the first piece of what is left.** -/
theorem finish_step {l : Lane} {s : σ} {r : Ran σ Lane} (h : l.step ex s = some r) :
    l.finish ex s = r.andThen fun l' s => l'.finish ex s := by
  rcases step_cases h with ⟨i, p, rest, finished, rfl, rfl⟩ |
    ⟨place, id, spoiled, reports, waiting, finished, rfl, rfl⟩ |
    ⟨place, id, spoiled, a, rest, reports, waiting, finished, rfl, rfl⟩
  · simp only [finish, runNumbered, runDelta, Ran.andThen_assoc, Ran.idle_andThen,
      List.nil_append]
  · simp only [finish, runActions, Ran.idle_andThen, List.append_nil, List.append_assoc,
      List.singleton_append]
  · simp only [finish, runActions, Ran.andThen_assoc, Ran.idle_andThen, List.append_assoc,
      List.singleton_append]

/-- Every action that is left is done by a command on one of the resources `R`. -/
structure Within (R : String → Prop) (l : Lane) : Prop where
  running : ∀ c, l.running = some c → ∀ a ∈ c.todo, OnR R a
  waiting : ∀ n ∈ l.waiting, ∀ a ∈ n.2.actions, OnR R a

theorem localTo_finish (hex : ByResource ex log) {R : String → Prop} {l : Lane}
    (h : l.Within R) : LocalTo ex.config log R (l.finish ex) := by
  have hwait : ∀ g : List (Nat × DeltaReport) → List (Nat × DeltaReport),
      LocalTo ex.config log R fun s =>
        (ex.runNumbered l.waiting s).andThen fun later s => .idle (g later) s :=
    fun g => (localTo_runNumbered hex h.waiting).andThen fun later => .idle (g later)
  unfold finish
  cases hr : l.running with
  | none => exact hwait _
  | some c => exact (localTo_runActions hex _ _ (h.running c hr)).andThen fun _ => hwait _

/-- A step is work at home on the resources of the lane. -/
theorem exists_localTo_step (hex : ByResource ex log) {R : String → Prop} {l : Lane}
    (h : l.Within R) {s : σ} {r : Ran σ Lane} (hs : l.step ex s = some r) :
    ∃ f : σ → Ran σ Lane, LocalTo ex.config log R f ∧ r = f s := by
  rcases step_cases hs with ⟨i, p, rest, finished, rfl, rfl⟩ |
    ⟨place, id, spoiled, reports, waiting, finished, rfl, rfl⟩ |
    ⟨place, id, spoiled, a, rest, reports, waiting, finished, rfl, rfl⟩
  · exact ⟨_, .idle _, rfl⟩
  · exact ⟨_, .idle _, rfl⟩
  · have ha : OnR R a := h.running _ rfl a List.mem_cons_self
    exact ⟨_, (localTo_act hex _ spoiled ha).andThen fun _ => .idle _, rfl⟩

theorem within_step {R : String → Prop} {l : Lane} (h : l.Within R) {s : σ} {r : Ran σ Lane}
    (hs : l.step ex s = some r) : r.value.Within R := by
  rcases step_cases hs with ⟨i, p, rest, finished, rfl, rfl⟩ |
    ⟨place, id, spoiled, reports, waiting, finished, rfl, rfl⟩ |
    ⟨place, id, spoiled, a, rest, reports, waiting, finished, rfl, rfl⟩
  · refine ⟨?_, fun n hn => h.waiting n (List.mem_cons_of_mem _ hn)⟩
    rintro c ⟨⟩
    exact h.waiting (i, p) List.mem_cons_self
  · exact ⟨nofun, h.waiting⟩
  · refine ⟨?_, h.waiting⟩
    rintro c ⟨⟩
    exact fun b hb => h.running _ rfl b (List.mem_cons_of_mem _ hb)

end Lane

/-! ## 2. All lanes together -/

namespace Flight

theorem step_eq_some {fl fl' : Flight σ} {i : Nat} (h : fl.step ex i = some fl') :
    ∃ l r, fl.lanes[i]? = some l ∧ l.step ex fl.host = some r ∧
      fl' = ⟨fl.lanes.set i r.value, r.host, fl.deeds ++ r.deeds⟩ := by
  unfold step at h
  split at h
  · cases h
  · rename_i l hl
    split at h
    · cases h
    · obtain ⟨r, hr, rfl⟩ := Option.map_eq_some_iff.mp h
      exact ⟨l, r, hl, hr, rfl⟩

end Flight

/-- No resource belongs to two lanes. -/
def Apart (R : Nat → String → Prop) : Prop := ∀ i j r, R i r → R j r → i = j

theorem getElem?_set_cases {α : Type} {xs : List α} {i k : Nat} {x y : α}
    (h : (xs.set i x)[k]? = some y) : (k = i ∧ y = x) ∨ (k ≠ i ∧ xs[k]? = some y) := by
  rw [List.getElem?_set] at h
  split at h
  · rename_i hik
    split at h
    · exact .inl ⟨hik.symm, (Option.some.inj h).symm⟩
    · cases h
  · rename_i hik
    exact .inr ⟨Ne.symm hik, h⟩

/-- The lanes under way, each on its way from its beginning; `R i` are the resources of lane `i`. -/
structure OnCourse (ex : Executor σ) (R : Nat → String → Prop) (begun : List Lane) (s₀ : σ)
    (fl : Flight σ) : Prop where
  length : fl.lanes.length = begun.length
  within : ∀ (i : Nat) (l : Lane), fl.lanes[i]? = some l → l.Within (R i)
  value : ∀ (i : Nat) (l b : Lane), fl.lanes[i]? = some l → begun[i]? = some b →
    (l.finish ex fl.host).value = (b.finish ex s₀).value
  commands : ∀ (i : Nat) (l b : Lane), fl.lanes[i]? = some l → begun[i]? = some b →
    ∀ r, R i r →
      ex.config.onResource r (fl.commands ++ (l.finish ex fl.host).commands) =
        ex.config.onResource r (b.finish ex s₀).commands
  owned : ∀ c ∈ fl.commands, ∃ i, R i (ex.config.resourceOf c)

namespace OnCourse

variable {R : Nat → String → Prop} {begun : List Lane} {s₀ : σ} {fl fl' : Flight σ}

theorem start (h : ∀ (i : Nat) (b : Lane), begun[i]? = some b → b.Within (R i)) :
    OnCourse ex R begun s₀ ⟨begun, s₀, []⟩ where
  length := rfl
  within := h
  value i l b hl hb := by
    cases Option.some.inj (hl.symm.trans hb)
    rfl
  commands i l b hl hb r _ := by
    cases Option.some.inj (hl.symm.trans hb)
    rfl
  owned c hc := absurd hc List.not_mem_nil

/-- **A step keeps all lanes on their way.** -/
theorem step (h : OnCourse ex R begun s₀ fl) (hex : ByResource ex log) (hR : Apart R) {i : Nat}
    (hs : fl.step ex i = some fl') : OnCourse ex R begun s₀ fl' := by
  obtain ⟨l, r, hl, hr, rfl⟩ := Flight.step_eq_some hs
  have hwithin := h.within i l hl
  obtain ⟨f, hf, rfl⟩ := Lane.exists_localTo_step hex hwithin hr
  have hfinish := Lane.finish_step hr
  have hcommands : Flight.commands ⟨fl.lanes.set i (f fl.host).value, (f fl.host).host,
      fl.deeds ++ (f fl.host).deeds⟩ = fl.commands ++ (f fl.host).commands :=
    List.filterMap_append
  -- the step is on resources of lane `i`, so another lane does not notice it
  have hother : ∀ k, k ≠ i → ∀ q, R k q → ¬ R i q := fun k hk q hkq hiq => hk (hR k i q hkq hiq)
  refine ⟨?_, ?_, ?_, ?_, ?_⟩
  · exact List.length_set.trans h.length
  · intro k m hm
    rcases getElem?_set_cases hm with ⟨rfl, rfl⟩ | ⟨-, hm⟩
    · exact Lane.within_step hwithin hr
    · exact h.within k m hm
  · intro k m b hm hb
    rcases getElem?_set_cases hm with ⟨rfl, rfl⟩ | ⟨hk, hm⟩
    · exact (congrArg Ran.value hfinish).symm.trans (h.value k l b hl hb)
    · have hag := hf.agree_outside (hother k hk) fl.host
      exact ((Lane.localTo_finish hex (h.within k m hm)).same _ _ hag).1.trans
        (h.value k m b hm hb)
  · intro k m b hm hb q hq
    rw [hcommands]
    rcases getElem?_set_cases hm with ⟨rfl, rfl⟩ | ⟨hk, hm⟩
    · rw [← h.commands k l b hl hb q hq, hfinish, Ran.commands_andThen, List.append_assoc]
    · have hag := hf.agree_outside (hother k hk) fl.host
      rw [← h.commands k m b hm hb q hq,
        ((Lane.localTo_finish hex (h.within k m hm)).same _ _ hag).2]
      simp only [ExecutorConfig.onResource_append, hf.outside (hother k hk q hq),
        List.append_nil]
  · intro c hc
    rw [hcommands, List.mem_append] at hc
    rcases hc with hc | hc
    · exact h.owned c hc
    · exact ⟨i, hf.within _ c hc⟩

end OnCourse

theorem onCourse_of_interleaves {R : Nat → String → Prop} {begun fl : Flight σ}
    (hbegun : OnCourse ex R begun.lanes begun.host begun) (hex : ByResource ex log)
    (hR : Apart R) (h : Interleaves ex begun fl) :
    OnCourse ex R begun.lanes begun.host fl := by
  induction h with
  | start => exact hbegun
  | step _ i hs ih => exact ih.step hex hR hs

/-! ## 3. Lanes do not wait for ever -/

namespace Lane

theorem exists_step (ex : Executor σ) {l : Lane} (h : l.isOver = false) (s : σ) :
    ∃ r, l.step ex s = some r := by
  obtain ⟨running, waiting, finished⟩ := l
  cases running with
  | none =>
    cases waiting with
    | nil => cases h
    | cons n rest => exact ⟨_, rfl⟩
  | some c =>
    obtain ⟨place, id, spoiled, todo, reports⟩ := c
    cases todo <;> exact ⟨_, rfl⟩

/-- The number of steps of chains that have not begun. -/
def stepsWaiting (waiting : List (Nat × PlannedDelta)) : Nat :=
  waiting.foldr (fun n steps => n.2.actions.length + 2 + steps) 0

/-- The number of steps that are left. -/
def stepsLeft (l : Lane) : Nat :=
  l.running.elim 0 (fun c => c.todo.length + 1) + stepsWaiting l.waiting

theorem stepsLeft_step {l : Lane} {s : σ} {r : Ran σ Lane} (h : l.step ex s = some r) :
    r.value.stepsLeft < l.stepsLeft := by
  rcases step_cases h with ⟨i, p, rest, finished, rfl, rfl⟩ |
    ⟨place, id, spoiled, reports, waiting, finished, rfl, rfl⟩ |
    ⟨place, id, spoiled, a, rest, reports, waiting, finished, rfl, rfl⟩
  · simp only [stepsLeft, stepsWaiting, Ran.idle, Option.elim, List.foldr_cons]
    omega
  · simp only [stepsLeft, Ran.idle, Option.elim]
    omega
  · simp only [stepsLeft, Ran.idle, Ran.andThen, Option.elim, List.length_cons]
    omega

end Lane

/-- **As long as a lane is not over, some lane can move**, whatever the number of permits. -/
theorem exists_step (ex : Executor σ) {fl : Flight σ} (h : fl.isOver = false) :
    ∃ i fl', fl.step ex i = some fl' := by
  have hmove : ∀ (i : Nat) (l : Lane), fl.lanes[i]? = some l → l.isOver = false →
      (l.isFresh && decide (permits ex ≤ fl.lanes.countP Lane.holdsPermit)) = false →
      ∃ fl', fl.step ex i = some fl' := by
    intro i l hl hl' hfree
    obtain ⟨r, hr⟩ := Lane.exists_step ex hl' fl.host
    refine ⟨⟨fl.lanes.set i r.value, r.host, fl.deeds ++ r.deeds⟩, ?_⟩
    unfold Flight.step
    simp only [hl, hfree, hr, Option.map_some, Bool.false_eq_true, if_false]
  by_cases hheld : ∃ l ∈ fl.lanes, l.holdsPermit = true
  · -- a lane that holds a permit is free to move
    obtain ⟨l, hl, hp⟩ := hheld
    obtain ⟨i, hi⟩ := List.getElem?_of_mem hl
    simp only [Lane.holdsPermit, Bool.and_eq_true, Bool.not_eq_true'] at hp
    exact ⟨i, hmove i l hi hp.2 (by rw [hp.1, Bool.false_and])⟩
  · -- no permit is taken, so there is one for a lane that has not begun
    have hzero : fl.lanes.countP Lane.holdsPermit = 0 :=
      List.countP_eq_zero.mpr fun l hl hp => hheld ⟨l, hl, hp⟩
    obtain ⟨l, hl, hover⟩ := List.all_eq_false.mp h
    obtain ⟨i, hi⟩ := List.getElem?_of_mem hl
    refine ⟨i, hmove i l hi (eq_false_of_ne_true hover) ?_⟩
    have hfew : ¬ permits ex ≤ 0 := by
      unfold permits
      omega
    rw [hzero, decide_eq_false hfew, Bool.and_false]

/-- The number of steps that all lanes together have left. -/
def stepsOf (lanes : List Lane) : Nat := lanes.foldr (fun l steps => l.stepsLeft + steps) 0

/-- A sum gets smaller with one of its terms. -/
theorem foldr_add_set_lt {α : Type} {f : α → Nat} : ∀ {xs : List α} {i : Nat} {x y : α},
    xs[i]? = some x → f y < f x →
      (xs.set i y).foldr (fun x n => f x + n) 0 < xs.foldr (fun x n => f x + n) 0
  | a :: xs, 0, x, y, hx, h => by
    cases hx
    exact Nat.add_lt_add_right h _
  | a :: xs, i + 1, x, y, hx, h => by
    have ih := @foldr_add_set_lt α f xs i x y hx h
    exact Nat.add_lt_add_left ih (f a)

theorem stepsOf_step {fl fl' : Flight σ} {i : Nat} (h : fl.step ex i = some fl') :
    stepsOf fl'.lanes < stepsOf fl.lanes := by
  obtain ⟨l, r, hl, hr, rfl⟩ := Flight.step_eq_some h
  exact foldr_add_set_lt hl (Lane.stepsLeft_step hr)

/-- A step before any number of steps. -/
theorem Interleaves.after {fl fl' fl'' : Flight σ} {i : Nat} (hs : fl.step ex i = some fl')
    (h : Interleaves ex fl' fl'') : Interleaves ex fl fl'' := by
  induction h with
  | start => exact .step .start i hs
  | step _ j hj ih => exact ih.step j hj

/-- **Lanes come to their end**, from wherever they are. -/
theorem exists_end (ex : Executor σ) (fl : Flight σ) :
    ∃ fl', Interleaves ex fl fl' ∧ fl'.isOver = true := by
  induction hn : stepsOf fl.lanes using Nat.strongRecOn generalizing fl with
  | ind n ih =>
    cases hover : fl.isOver with
    | true => exact ⟨fl, .start, hover⟩
    | false =>
      obtain ⟨i, fl', hs⟩ := exists_step ex hover
      obtain ⟨fl'', h, hend⟩ := ih _ (hn ▸ stepsOf_step hs) fl' rfl
      exact ⟨fl'', h.after hs, hend⟩

end Converge.Executor
