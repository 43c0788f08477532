import Converge.Executor.Crew
import Converge.Proofs.Executor.Interleaving

/-!
# Chains exclude each other and never block each other for good

Callers of one executor hold permits and locks at the same time, and any of them may move next. What
keeps them alive is the order of the locks: a chain that waits for a lock has only smaller ones.

* `Call.errands`: what the callers of an executor have to do (`Call.chains_batch`); `OnErrand` says
  where on its errand a caller is;
* `Moves` is all that a step of a caller can be, and `Crew.exists_shift` finds it in a step of the
  crew; `Crew.Stuck` is why a caller does not move;
* `Orderly` is the invariant: every caller is on its errand, no lock has two holders, and every
  permit is free or taken. **`Orderly.run`**: it holds in whatever order callers move;
* **`Orderly.exists_step`**: if nobody moved, the holder of a lock that is waited for would wait for
  a greater one; and if no lock is waited for, a permit is free;
* **`exclusive_and_live`**: two chains that run share no resource, and as long as a caller is not
  done some caller moves, until all are done.
-/

namespace Converge.Executor

variable {σ : Type}

/-! ## 1. The order of locks -/

theorem sorted_lockOrder (resources : List String) :
    (lockOrder resources).Pairwise fun r r' => compare r r' = .lt :=
  List.pairwise_map.mpr (SortedMap.ofList (resources.map fun r => (r, ()))).sorted

/-- **A chain locks its resources and no others.** -/
theorem mem_lockOrder {resources : List String} {r : String} :
    r ∈ lockOrder resources ↔ r ∈ resources := by
  unfold lockOrder
  rw [SortedMap.mem_keys_ofList, List.map_map]
  exact ⟨fun h => by simpa using h, fun h => by simpa using h⟩

theorem irrefl_lock (r : String) : compare r r ≠ .lt := by
  rw [show compare r r = .eq from Std.ReflCmp.compare_self]
  nofun

/-- A list that is not empty has an element below which no other one lies. -/
theorem exists_greatest : ∀ {l : List String}, l ≠ [] → ∃ m ∈ l, ∀ w ∈ l, compare m w ≠ .lt
  | [], h => absurd rfl h
  | [a], _ => ⟨a, List.mem_singleton_self a, fun w hw => by
    obtain rfl := List.mem_singleton.mp hw
    exact irrefl_lock w⟩
  | a :: b :: rest, _ => by
    obtain ⟨m, hm, hmax⟩ := exists_greatest (List.cons_ne_nil b rest)
    by_cases hlt : compare m a = .lt
    · refine ⟨a, List.mem_cons_self, fun w hw h => ?_⟩
      rcases List.mem_cons.mp hw with rfl | hw
      · exact irrefl_lock w h
      · exact hmax w hw (Std.TransCmp.lt_trans hlt h)
    · refine ⟨m, List.mem_cons_of_mem _ hm, fun w hw => ?_⟩
      rcases List.mem_cons.mp hw with rfl | hw
      · exact hlt
      · exact hmax w hw

/-! ## 2. Errands -/

/-- A call of an executor. -/
inductive Call where
  | execute (actions : List Action)
  | batch (planned : List PlannedDelta)

/-- What one caller has to do. -/
structure Errand where
  /-- It works under a permit. -/
  permitted : Bool
  /-- The resources of its chains, one after another. -/
  chains : List (List String)

/-- A batch has a caller for each of its groups. -/
def Call.errands : Call → List Errand
  | .execute actions => [⟨false, [actions.map Action.resource]⟩]
  | .batch planned =>
    let groups := Grouping.groupByResource (planned.map fun p => p.actions.map Action.resource)
    groups.map fun places =>
      ⟨true, (chainsAt planned places).map fun n => n.2.actions.map Action.resource⟩

/-- **The callers of a batch have its chains between them**, each chain once. -/
theorem Call.chains_batch (planned : List PlannedDelta) :
    ((Call.batch planned).errands.flatMap Errand.chains).Perm
      (planned.map fun p => p.actions.map Action.resource) := by
  have hgroups : (Call.batch planned).errands.flatMap Errand.chains =
      (chainsAt planned (schedule planned)).map fun n => n.2.actions.map Action.resource := by
    simp only [errands, schedule, chainsAt, List.flatMap_def, List.filterMap_flatten,
      List.map_flatten, List.map_map]
    rfl
  have hperm := ((schedule_perm planned).filterMap fun i => planned[i]?.map fun p => (i, p)).map
    fun n => n.2.actions.map Action.resource
  have hall := congrArg (List.map fun p : PlannedDelta => p.actions.map Action.resource)
    (snd_chainsAt_range planned)
  rw [List.map_map] at hall
  rw [hgroups, ← hall]
  exact hperm

/-- A caller before its first step. -/
def Errand.caller (e : Errand) : Caller :=
  if e.permitted then .ofGroup e.chains else .begin ⟨false, .done, e.chains⟩

/-- Callers before their first steps. -/
def Crew.setOut (permits : Nat) (errands : List Errand) : Crew :=
  ⟨permits, errands.map Errand.caller⟩

/-- Where on its errand a caller may be. -/
inductive OnErrand (e : Errand) : Caller → Prop where
  | queueing (h : e.permitted = true) : OnErrand e ⟨e.permitted, .queueing, e.chains⟩
  | locking {past later : List (List String)} {now held needed : List String}
    (hchains : e.chains = past ++ now :: later) (horder : held ++ needed = lockOrder now) :
    OnErrand e ⟨e.permitted, .locking held needed, later⟩
  | running {past later : List (List String)} {now : List String}
    (hchains : e.chains = past ++ now :: later) :
    OnErrand e ⟨e.permitted, .running (lockOrder now), later⟩
  | done : OnErrand e ⟨e.permitted, .done, []⟩

namespace OnErrand

variable {e : Errand}

theorem begin (past : List (List String)) {later : List (List String)}
    (h : e.chains = past ++ later) (stand : Stand) :
    OnErrand e (Caller.begin ⟨e.permitted, stand, later⟩) := by
  cases later with
  | nil => exact .done
  | cons now later => exact .locking h rfl

/-- Only callers that need a permit queue for one. -/
theorem permitted_of_queueing {c : Caller} (h : OnErrand e c) (hc : c.stand = .queueing) :
    c.permitted = true := by
  cases h with
  | queueing h => exact h
  | locking | running | done => cases hc

theorem setOut (e : Errand) : OnErrand e e.caller := by
  unfold Errand.caller
  split
  · next h =>
    have hqueueing : OnErrand e ⟨e.permitted, .queueing, e.chains⟩ := .queueing h
    rw [h] at hqueueing
    exact hqueueing
  · next h =>
    have hbegin : OnErrand e (Caller.begin ⟨e.permitted, .done, e.chains⟩) := begin [] rfl _
    rw [eq_false_of_ne_true h] at hbegin
    exact hbegin

end OnErrand

/-! ## 3. Steps -/

namespace Caller

@[simp] theorem held_begin (c : Caller) : c.begin.stand.held = [] := by
  unfold begin
  split <;> rfl

/-- It has a permit. -/
def hasPermit (c : Caller) : Bool :=
  c.permitted && decide (c.stand ≠ .queueing) && decide (c.stand ≠ .done)

end Caller

/-- All that a step of a caller can be. -/
inductive Moves (crew : Crew) : Caller → Caller → Prop where
  | enter {permitted : Bool} {later : List (List String)} (h : crew.permits ≠ 0) :
    Moves crew ⟨permitted, .queueing, later⟩ (Caller.begin ⟨permitted, .queueing, later⟩)
  | lock {permitted : Bool} {held needed : List String} {r : String} {later : List (List String)}
    (h : crew.isFree r = true) :
    Moves crew ⟨permitted, .locking held (r :: needed), later⟩
      ⟨permitted, .locking (held ++ [r]) needed, later⟩
  | start {permitted : Bool} {held : List String} {later : List (List String)} :
    Moves crew ⟨permitted, .locking held [], later⟩ ⟨permitted, .running held, later⟩
  | finish {permitted : Bool} {held : List String} {later : List (List String)} :
    Moves crew ⟨permitted, .running held, later⟩ (Caller.begin ⟨permitted, .running held, later⟩)

namespace Moves

variable {crew : Crew} {c c' : Caller} {e : Errand}

/-- A caller that moves stays on its errand. -/
theorem onErrand (h : Moves crew c c') (he : OnErrand e c) : OnErrand e c' := by
  cases he with
  | queueing =>
    cases h
    exact .begin [] rfl _
  | locking hchains horder =>
    cases h with
    | lock hfree => exact .locking hchains (by rw [List.append_assoc]; exact horder)
    | start =>
      rw [List.append_nil] at horder
      rw [horder]
      exact .running hchains
  | @running past later now hchains =>
    cases h
    exact .begin (past ++ [now]) (by rw [hchains, List.append_assoc]; rfl) _
  | done => cases h

/-- What it has then it had before, or nobody had it. -/
theorem held (h : Moves crew c c') {r : String} (hr : r ∈ c'.stand.held) :
    r ∈ c.stand.held ∨ crew.isFree r = true := by
  cases h with
  | enter | finish =>
    rw [Caller.held_begin] at hr
    cases hr
  | lock hfree =>
    rcases List.mem_append.mp hr with hr | hr
    · exact .inl hr
    · obtain rfl := List.mem_singleton.mp hr
      exact .inr hfree
  | start => exact .inl hr

end Moves

namespace Crew

variable {crew crew' : Crew} {i : Nat}

theorem callers_moveOn (crew : Crew) (i : Nat) (c : Caller) :
    (crew.moveOn i c).callers = crew.callers.set i c.begin := by
  unfold moveOn update
  dsimp only
  split <;> rfl

/-- A permit that a caller gives back is free again. -/
theorem permits_moveOn (crew : Crew) (i : Nat) (c : Caller) :
    (crew.moveOn i c).permits + c.begin.hasPermit.toNat = crew.permits + c.permitted.toNat := by
  obtain ⟨permitted, stand, later⟩ := c
  cases later <;> cases permitted <;> rfl

/-- What a step of a caller does to the crew. -/
structure Shift (crew : Crew) (i : Nat) (c c' : Caller) (crew' : Crew) : Prop where
  before : crew.callers[i]? = some c
  moves : Moves crew c c'
  callers : crew'.callers = crew.callers.set i c'
  /-- A permit is neither lost nor made, if only those queue who need one. -/
  permits : (c.stand = .queueing → c.permitted = true) →
    crew'.permits + c'.hasPermit.toNat = crew.permits + c.hasPermit.toNat

theorem not_mem_held_of_isFree {r : String} (h : crew.isFree r = true) {c : Caller}
    (hc : crew.callers[i]? = some c) : r ∉ c.stand.held := by
  have hall := List.all_eq_true.mp h c (List.mem_of_getElem? hc)
  simpa using hall

theorem exists_holder {r : String} (h : crew.isFree r = false) :
    ∃ (i : Nat) (c : Caller), crew.callers[i]? = some c ∧ r ∈ c.stand.held := by
  obtain ⟨c, hc, hheld⟩ := List.all_eq_false.mp h
  obtain ⟨i, hi⟩ := List.getElem?_of_mem hc
  exact ⟨i, c, hi, by simpa using hheld⟩

/-- The holders of permits when a caller has become another one. -/
theorem countP_set {callers : List Caller} {i : Nat} {c : Caller} (hc : callers[i]? = some c)
    (c' : Caller) :
    (callers.set i c').countP Caller.hasPermit + c.hasPermit.toNat =
      callers.countP Caller.hasPermit + c'.hasPermit.toNat := by
  obtain ⟨hi, rfl⟩ := List.getElem?_eq_some_iff.mp hc
  have hnat : ∀ b : Bool, (if b = true then 1 else 0) = b.toNat := by decide
  have hle := List.boole_getElem_le_countP (p := Caller.hasPermit) hi
  rw [List.countP_set hi]
  simp only [hnat] at hle ⊢
  omega

/-- **A step is a step of one caller.** -/
theorem exists_shift (h : crew.next i = some crew') : ∃ c c', Shift crew i c c' crew' := by
  unfold next at h
  split at h
  · cases h
  · next c hc =>
    obtain ⟨permitted, stand, later⟩ := c
    cases stand with
    | queueing =>
      dsimp only at h
      split_ifs at h with hfull
      cases h
      refine ⟨_, _, hc, .enter hfull, callers_moveOn _ i _, fun hneeds => ?_⟩
      obtain rfl : permitted = true := hneeds rfl
      rw [permits_moveOn]
      exact Nat.sub_add_cancel (Nat.one_le_iff_ne_zero.mpr hfull)
    | locking held needed =>
      cases needed with
      | nil =>
        cases h
        exact ⟨_, _, hc, .start, rfl, fun _ => by cases permitted <;> rfl⟩
      | cons r needed =>
        dsimp only at h
        split_ifs at h with hfree
        cases h
        exact ⟨_, _, hc, .lock hfree, rfl, fun _ => by cases permitted <;> rfl⟩
    | running held =>
      cases h
      refine ⟨_, _, hc, .finish, callers_moveOn _ i _, fun _ => ?_⟩
      rw [permits_moveOn]
      cases permitted <;> rfl
    | done => cases h

/-- Why a caller does not move. -/
inductive Stuck (crew : Crew) : Stand → Prop where
  | full (h : crew.permits = 0) : Stuck crew .queueing
  | taken {held needed : List String} {r : String} (h : crew.isFree r = false) :
    Stuck crew (.locking held (r :: needed))
  | done : Stuck crew .done

theorem stuck_of_next_eq_none (h : crew.next i = none) {c : Caller}
    (hc : crew.callers[i]? = some c) : Stuck crew c.stand := by
  unfold next at h
  rw [hc] at h
  dsimp only at h
  split at h
  · next hstand =>
    rw [hstand]
    split_ifs at h with hfull
    exact .full hfull
  · cases h
  · next hstand =>
    rw [hstand]
    split_ifs at h with hfree
    exact .taken (eq_false_of_ne_true hfree)
  · cases h
  · next hstand =>
    rw [hstand]
    exact .done

end Crew

namespace Errand

variable (e : Errand)

theorem held_caller : e.caller.stand.held = [] := by
  unfold caller
  split
  · rfl
  · exact Caller.held_begin _

theorem hasPermit_caller : e.caller.hasPermit = false := by
  unfold caller
  split
  · rfl
  · cases e.chains <;> rfl

end Errand

/-! ## 4. What holds at any moment -/

/-- Callers on their errands. -/
structure Orderly (permits : Nat) (errands : List Errand) (crew : Crew) : Prop where
  length : crew.callers.length = errands.length
  onErrand : ∀ (i : Nat) (e : Errand) (c : Caller), errands[i]? = some e →
    crew.callers[i]? = some c → OnErrand e c
  /-- No lock has two holders. -/
  apart : ∀ (i j : Nat) (c c' : Caller) (r : String), crew.callers[i]? = some c →
    crew.callers[j]? = some c' → r ∈ c.stand.held → r ∈ c'.stand.held → i = j
  /-- Every permit is free or taken. -/
  permits : crew.permits + crew.callers.countP Caller.hasPermit = permits

namespace Orderly

variable {n : Nat} {errands : List Errand} {crew crew' : Crew} {i : Nat}

theorem setOut (n : Nat) (errands : List Errand) : Orderly n errands (.setOut n errands) where
  length := List.length_map _
  onErrand i e c he hc := by
    simp only [Crew.setOut, List.getElem?_map, he, Option.map_some] at hc
    cases hc
    exact .setOut e
  apart i j c c' r hc _ hr _ := by
    obtain ⟨e, -, rfl⟩ := List.mem_map.mp (List.mem_of_getElem? hc)
    rw [e.held_caller] at hr
    cases hr
  permits := by
    have hnone : (errands.map Errand.caller).countP Caller.hasPermit = 0 := by
      rw [List.countP_map, List.countP_eq_zero]
      intro e _ he
      rw [Function.comp_apply, e.hasPermit_caller] at he
      cases he
    exact congrArg (n + ·) hnone

theorem exists_errand (h : Orderly n errands crew) {c : Caller} (hc : crew.callers[i]? = some c) :
    ∃ e, errands[i]? = some e ∧ OnErrand e c := by
  obtain ⟨hi, -⟩ := List.getElem?_eq_some_iff.mp hc
  rw [h.length] at hi
  exact ⟨_, List.getElem?_eq_getElem hi, h.onErrand i _ c (List.getElem?_eq_getElem hi) hc⟩

/-- **A step keeps the callers in order.** -/
theorem next (h : Orderly n errands crew) (hs : crew.next i = some crew') :
    Orderly n errands crew' := by
  obtain ⟨c, c', hshift⟩ := Crew.exists_shift hs
  obtain ⟨e, he, hon⟩ := h.exists_errand hshift.before
  have hcallers := hshift.callers
  -- a lock that the caller takes is a lock of nobody else
  have hother : ∀ (j : Nat) (b : Caller) (r : String), crew.callers[j]? = some b →
      r ∈ c'.stand.held → r ∈ b.stand.held → i = j := by
    intro j b r hb hr hr'
    rcases hshift.moves.held hr with hr | hfree
    · exact h.apart i j c b r hshift.before hb hr hr'
    · exact absurd hr' (Crew.not_mem_held_of_isFree hfree hb)
  refine ⟨?_, ?_, ?_, ?_⟩
  · rw [hcallers, List.length_set, h.length]
  · intro k e' b he' hb
    rw [hcallers] at hb
    rcases getElem?_set_cases hb with ⟨rfl, rfl⟩ | ⟨-, hb⟩
    · obtain rfl := Option.some.inj (he.symm.trans he')
      exact hshift.moves.onErrand hon
    · exact h.onErrand k e' b he' hb
  · intro j k b b' r hb hb' hr hr'
    rw [hcallers] at hb hb'
    rcases getElem?_set_cases hb with ⟨hj, hbc⟩ | ⟨-, hbj⟩
    · rcases getElem?_set_cases hb' with ⟨hk, -⟩ | ⟨-, hbk⟩
      · exact hj.trans hk.symm
      · rw [hbc] at hr
        exact hj.trans (hother k b' r hbk hr hr')
    · rcases getElem?_set_cases hb' with ⟨hk, hbc⟩ | ⟨-, hbk⟩
      · rw [hbc] at hr'
        exact ((hk.trans (hother j b r hbj hr' hr))).symm
      · exact h.apart j k b b' r hbj hbk hr hr'
  · have hcount := Crew.countP_set hshift.before c'
    have hpermits := hshift.permits hon.permitted_of_queueing
    have hall := h.permits
    rw [hcallers]
    omega

/-- **Whoever moves, the callers stay in order.** -/
theorem run : ∀ {crew : Crew} (order : List Nat), Orderly n errands crew →
    Orderly n errands (crew.run order)
  | _, [], h => h
  | crew, i :: rest, h => by
    show Orderly n errands (((crew.next i).getD crew).run rest)
    cases hs : crew.next i with
    | none => exact run rest h
    | some crew' => exact run rest (h.next hs)

end Orderly

/-! ## 5. Nobody waits for good -/

/-- The locks that are waited for. -/
def Crew.wanted (crew : Crew) : List String := crew.callers.filterMap fun c => c.stand.wanted?

theorem Stand.wanted?_eq_some {s : Stand} {r : String} (h : s.wanted? = some r) :
    ∃ held needed, s = .locking held (r :: needed) := by
  cases s with
  | locking held needed =>
    cases needed with
    | nil => cases h
    | cons q needed =>
      cases h
      exact ⟨held, needed, rfl⟩
  | queueing | running _ | done => cases h

/-- A chain that waits for a lock has only smaller ones. -/
theorem OnErrand.lt_wanted {e : Errand} {c : Caller} (h : OnErrand e c) {held needed : List String}
    {r : String} (hc : c.stand = .locking held (r :: needed)) {q : String} (hq : q ∈ held) :
    compare q r = .lt := by
  cases h with
  | @locking past later now _ _ hchains horder =>
    cases hc
    have hsorted := sorted_lockOrder now
    rw [← horder] at hsorted
    exact (List.pairwise_append.mp hsorted).2.2 q hq r List.mem_cons_self
  | queueing | running | done => cases hc

namespace Orderly

variable {n : Nat} {errands : List Errand} {crew : Crew}

/-- **If nobody moves, the holder of a lock that is waited for waits for a greater one.** -/
theorem exists_greater (h : Orderly n errands crew) (hnone : ∀ i, crew.next i = none) {r : String}
    (hr : r ∈ crew.wanted) : ∃ q ∈ crew.wanted, compare r q = .lt := by
  obtain ⟨c, hc, hwanted⟩ := List.mem_filterMap.mp hr
  obtain ⟨i, hi⟩ := List.getElem?_of_mem hc
  obtain ⟨held, needed, hstand⟩ := Stand.wanted?_eq_some hwanted
  have htaken : crew.isFree r = false := by
    have hstuck := Crew.stuck_of_next_eq_none (hnone i) hi
    rw [hstand] at hstuck
    cases hstuck with
    | taken hfree => exact hfree
  obtain ⟨j, b, hj, hheld⟩ := Crew.exists_holder htaken
  obtain ⟨e, -, hon⟩ := h.exists_errand hj
  have hstuck := Crew.stuck_of_next_eq_none (hnone j) hj
  generalize hb : b.stand = s at hstuck
  rw [hb] at hheld
  cases hstuck with
  | full => cases hheld
  | done => cases hheld
  | @taken held' needed' q =>
    refine ⟨q, List.mem_filterMap.mpr ⟨b, List.mem_of_getElem? hj, ?_⟩, hon.lt_wanted hb hheld⟩
    rw [hb]
    rfl

/-- **As long as a caller is not done some caller moves.** -/
theorem exists_step (h : Orderly n errands crew) (hn : 0 < n)
    (hc : ∃ c ∈ crew.callers, c.stand ≠ .done) : ∃ i crew', crew.next i = some crew' := by
  by_contra hstuck
  have hnone : ∀ i, crew.next i = none := fun i =>
    Option.eq_none_iff_forall_ne_some.mpr fun crew' hs => hstuck ⟨i, crew', hs⟩
  have hempty : crew.wanted = [] := by
    by_contra hne
    obtain ⟨m, hm, hgreatest⟩ := exists_greatest hne
    obtain ⟨q, hq, hlt⟩ := h.exists_greater hnone hm
    exact hgreatest q hq hlt
  -- nobody waits for a lock, so all that are not done wait for permits
  have hidle : ∀ c ∈ crew.callers, c.stand = .queueing ∧ crew.permits = 0 ∨ c.stand = .done := by
    intro c hc
    obtain ⟨i, hi⟩ := List.getElem?_of_mem hc
    have hstuck := Crew.stuck_of_next_eq_none (hnone i) hi
    generalize hs : c.stand = s at hstuck
    cases hstuck with
    | full hfull => exact .inl ⟨rfl, hfull⟩
    | done => exact .inr rfl
    | taken =>
      have hwanted := List.filterMap_eq_nil_iff.mp hempty c hc
      rw [hs] at hwanted
      cases hwanted
  have hzero : crew.callers.countP Caller.hasPermit = 0 := by
    refine List.countP_eq_zero.mpr fun c hc hpermit => ?_
    unfold Caller.hasPermit at hpermit
    rcases hidle c hc with ⟨hs, -⟩ | hs
    · simp [hs] at hpermit
    · simp [hs] at hpermit
  obtain ⟨c, hc, hundone⟩ := hc
  have hfull := ((hidle c hc).resolve_right hundone).2
  have hpermits := h.permits
  omega

end Orderly

/-! ## 6. Until all are done -/

/-- The steps of chains that have not begun. -/
def chainSteps (chains : List (List String)) : Nat :=
  chains.foldr (fun now steps => (lockOrder now).length + 2 + steps) 0

/-- The steps that a caller has left. -/
def Caller.stepsLeft (c : Caller) : Nat :=
  match c.stand with
  | .queueing => chainSteps c.later + 1
  | .locking _ needed => needed.length + 2 + chainSteps c.later
  | .running _ => chainSteps c.later + 1
  | .done => 0

theorem Caller.stepsLeft_begin_le (c : Caller) : c.begin.stepsLeft ≤ chainSteps c.later := by
  obtain ⟨permitted, stand, later⟩ := c
  cases later with
  | nil => exact Nat.zero_le _
  | cons now later => exact Nat.le_refl _

theorem Moves.stepsLeft_lt {crew : Crew} {c c' : Caller} (h : Moves crew c c') :
    c'.stepsLeft < c.stepsLeft := by
  cases h with
  | enter | finish => exact Nat.lt_succ_of_le (Caller.stepsLeft_begin_le _)
  | lock =>
    simp only [Caller.stepsLeft, List.length_cons]
    omega
  | start =>
    simp only [Caller.stepsLeft, List.length_nil]
    omega

/-- The steps that all callers together have left. -/
def Crew.stepsLeft (crew : Crew) : Nat :=
  crew.callers.foldr (fun c steps => c.stepsLeft + steps) 0

theorem Crew.stepsLeft_next {crew crew' : Crew} {i : Nat} (h : crew.next i = some crew') :
    crew'.stepsLeft < crew.stepsLeft := by
  obtain ⟨c, c', hshift⟩ := exists_shift h
  unfold stepsLeft
  rw [hshift.callers]
  exact foldr_add_set_lt hshift.before hshift.moves.stepsLeft_lt

/-- **All callers come to their end**, from wherever they are. -/
theorem Orderly.exists_end {n : Nat} {errands : List Errand} (hn : 0 < n) {crew : Crew}
    (h : Orderly n errands crew) : ∃ order, ∀ c ∈ (crew.run order).callers, c.stand = .done := by
  induction hsteps : crew.stepsLeft using Nat.strongRecOn generalizing crew with
  | ind k ih =>
    by_cases hc : ∃ c ∈ crew.callers, c.stand ≠ .done
    · obtain ⟨i, crew', hs⟩ := h.exists_step hn hc
      obtain ⟨order, hend⟩ := ih _ (hsteps ▸ Crew.stepsLeft_next hs) (h.next hs) rfl
      refine ⟨i :: order, ?_⟩
      show ∀ c ∈ (((crew.next i).getD crew).run order).callers, c.stand = .done
      rw [hs]
      exact hend
    · refine ⟨[], fun c hmem => ?_⟩
      by_contra hundone
      exact hc ⟨c, hmem, hundone⟩

/-! ## 7. Calls of one executor -/

/-- A caller runs a chain with these resources. -/
structure Errand.Runs (e : Errand) (c : Caller) (now : List String) : Prop where
  running : ∃ held, c.stand = .running held
  placed : ∃ past, e.chains = past ++ now :: c.later

/-- A caller that runs a chain has the locks of its resources, and no others. -/
theorem OnErrand.held_of_runs {e : Errand} {c : Caller} (h : OnErrand e c) {now : List String}
    (hruns : e.Runs c now) {r : String} : r ∈ c.stand.held ↔ r ∈ now := by
  obtain ⟨⟨held, hstand⟩, past, hplaced⟩ := hruns
  cases h with
  | @running past' later now' hchains =>
    have hsame : past ++ now :: later = past' ++ now' :: later := hplaced.symm.trans hchains
    obtain ⟨-, htail⟩ := List.append_inj' hsame rfl
    cases htail
    exact mem_lockOrder
  | queueing | locking | done => cases hstand

/-- Callers that neither clash nor block each other for good. -/
structure Concord (permits : Nat) (errands : List Errand) (crew : Crew) : Prop where
  /-- Two chains that run share no resource. -/
  exclusive : ∀ (i j : Nat) (e e' : Errand) (c c' : Caller) (now now' : List String), i ≠ j →
    errands[i]? = some e → crew.callers[i]? = some c → e.Runs c now →
      errands[j]? = some e' → crew.callers[j]? = some c' → e'.Runs c' now' →
        ∀ r ∈ now, r ∉ now'
  /-- No more groups of batches are under way than there are permits. -/
  bounded : crew.callers.countP Caller.hasPermit ≤ permits
  /-- As long as a caller is not done some caller moves. -/
  live : (∃ c ∈ crew.callers, c.stand ≠ .done) → ∃ i crew', crew.next i = some crew'
  /-- There is an order of steps after which all callers are done. -/
  ends : ∃ order, ∀ c ∈ (crew.run order).callers, c.stand = .done

/-- **Callers of one executor neither clash nor block each other for good**, whatever they call it
    for and in whatever order they move. -/
theorem exclusive_and_live (ex : Executor σ) (calls : List Call) (order : List Nat) :
    Concord (permits ex) (calls.flatMap Call.errands)
      ((Crew.setOut (permits ex) (calls.flatMap Call.errands)).run order) := by
  have h := (Orderly.setOut (permits ex) (calls.flatMap Call.errands)).run order
  have hn : 0 < permits ex := Nat.le_max_left _ _
  exact {
    exclusive := by
      intro i j e e' c c' now now' hne he hc hruns he' hc' hruns' r hr hr'
      refine hne (h.apart i j c c' r hc hc' ?_ ?_)
      · exact ((h.onErrand i e c he hc).held_of_runs hruns).mpr hr
      · exact ((h.onErrand j e' c' he' hc').held_of_runs hruns').mpr hr'
    bounded := by
      have hpermits := h.permits
      omega
    live := h.exists_step hn
    ends := h.exists_end hn }

end Converge.Executor
