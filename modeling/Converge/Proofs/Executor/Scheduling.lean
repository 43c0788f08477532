import Converge.Proofs.Executor.Interleaving

/-!
# The schedule of a batch does not matter

On a host on which commands on different resources do not disturb each other, a batch comes to the
same reports and to the same commands on each resource, whichever group moves next and however many
groups may be under way.

* `laneResources`: the resources of a group. They are apart (`apart_laneResources`), because rows
  with a common resource are in one group;
* `GroupWise` says that a run comes, for each group, to what the group comes to by itself. **That
  settles the reports and the commands on each resource** (`GroupWise.entries_eq`,
  `GroupWise.commands_eq`);
* it holds of the rows one after another in any order that keeps the order of each group
  (`groupWise_runNumbered`), and of every interleaving that is over (`groupWise_of_isOver`).
-/

namespace Converge.Executor

variable {σ : Type} {ex : Executor σ} {log : σ → List CommandSpec} {planned : List PlannedDelta}

/-! ## 1. The resources of the groups -/

/-- The groups of a batch. -/
def groupsOf (planned : List PlannedDelta) : List (List Nat) :=
  Grouping.groupByResource (resourcesOf planned)

/-- The resources of a group. -/
def laneResources (planned : List PlannedDelta) (i : Nat) (r : String) : Prop :=
  ∃ g, (groupsOf planned)[i]? = some g ∧ ∃ k ∈ g, ∃ p, planned[k]? = some p ∧
    ∃ a ∈ p.actions, a.resource = r

theorem length_resourcesOf (planned : List PlannedDelta) :
    (resourcesOf planned).length = planned.length :=
  List.length_map _

theorem exists_resource {k : Nat} {p : PlannedDelta} (hp : planned[k]? = some p) {a : Action}
    (ha : a ∈ p.actions) :
    ∃ h : k < (resourcesOf planned).length, a.resource ∈ (resourcesOf planned).get ⟨k, h⟩ := by
  obtain ⟨h, rfl⟩ := List.getElem?_eq_some_iff.mp hp
  refine ⟨by rwa [length_resourcesOf], ?_⟩
  simp only [resourcesOf, List.get_eq_getElem, List.getElem_map]
  exact List.mem_map_of_mem ha

/-- **No resource belongs to two groups.** -/
theorem apart_laneResources (planned : List PlannedDelta) : Apart (laneResources planned) := by
  rintro i j r ⟨g, hg, k, hk, p, hp, a, ha, rfl⟩ ⟨g', hg', k', hk', p', hp', a', ha', he⟩
  obtain ⟨h, hr⟩ := exists_resource hp ha
  obtain ⟨h', hr'⟩ := exists_resource hp' ha'
  rw [he] at hr'
  have hmem : k' ∈ g :=
    Grouping.share_group (List.mem_of_getElem? hg) (i := ⟨k, h⟩) (j := ⟨k', h'⟩) hr hr' hk
  exact Grouping.eq_of_mem_groups hg hg' hmem hk'

/-- The chains of a group are on the resources of the group. -/
theorem onR_chainsAt (hcmd : ∀ p ∈ planned, ∀ a ∈ p.actions, a.isCommand = true) {i : Nat}
    {g : List Nat} (hg : (groupsOf planned)[i]? = some g) {n : Nat × PlannedDelta} (hn : n.1 ∈ g)
    (hp : planned[n.1]? = some n.2) : ∀ a ∈ n.2.actions, OnR (laneResources planned i) a :=
  fun a ha => ⟨hcmd n.2 (List.mem_of_getElem? hp) a ha, g, hg, n.1, hn, n.2, hp, a, ha, rfl⟩

/-- The chains of a row outside a group are not on the resources of the group. -/
theorem onR_of_not_mem (hcmd : ∀ p ∈ planned, ∀ a ∈ p.actions, a.isCommand = true) {i : Nat}
    {g : List Nat} (hg : (groupsOf planned)[i]? = some g) {n : Nat × PlannedDelta} (hn : n.1 ∉ g)
    (hp : planned[n.1]? = some n.2) :
    ∀ a ∈ n.2.actions, OnR (fun r => ¬ laneResources planned i r) a := by
  intro a ha
  refine ⟨hcmd n.2 (List.mem_of_getElem? hp) a ha, ?_⟩
  rintro ⟨g', hg', k, hk, p, hp', b, hb, he⟩
  cases Option.some.inj (hg.symm.trans hg')
  obtain ⟨h, hr⟩ := exists_resource hp ha
  obtain ⟨h', hr'⟩ := exists_resource hp' hb
  rw [he] at hr'
  exact hn (Grouping.share_group (List.mem_of_getElem? hg) (i := ⟨k, h'⟩) (j := ⟨n.1, h⟩) hr' hr hk)

/-! ## 2. What settles a batch -/

/-- The run comes, for each group, to what the group comes to by itself. -/
structure GroupWise (ex : Executor σ) (planned : List PlannedDelta) (s : σ)
    (reports : List (Nat × DeltaReport)) (commands : List CommandSpec) : Prop where
  places_perm : (reports.map (·.1)).Perm (List.range planned.length)
  mem_reports : ∀ g ∈ groupsOf planned, ∀ e : Nat × DeltaReport, e.1 ∈ g →
    (e ∈ reports ↔ e ∈ (ex.runNumbered (chainsAt planned g) s).value)
  onResource_eq : ∀ (i : Nat) (g : List Nat), (groupsOf planned)[i]? = some g →
    ∀ r, laneResources planned i r → ex.config.onResource r commands =
      ex.config.onResource r (ex.runNumbered (chainsAt planned g) s).commands
  owned : ∀ c ∈ commands, ∃ i, laneResources planned i (ex.config.resourceOf c)

namespace GroupWise

variable {s : σ} {reports reports' : List (Nat × DeltaReport)}
  {commands commands' : List CommandSpec}

theorem nodup (h : GroupWise ex planned s reports commands) : (reports.map (·.1)).Nodup :=
  h.places_perm.nodup_iff.mpr List.nodup_range

/-- The place of a report is in a group. -/
theorem exists_group (h : GroupWise ex planned s reports commands) {e : Nat × DeltaReport}
    (he : e ∈ reports) : ∃ g ∈ groupsOf planned, e.1 ∈ g := by
  have hlt := List.mem_range.mp (h.places_perm.mem_iff.mp (List.mem_map_of_mem he))
  rw [← length_resourcesOf] at hlt
  exact Grouping.exists_group ⟨e.1, hlt⟩

/-- **Runs that come to the same for each group have the same reports.** -/
theorem entries_eq (h : GroupWise ex planned s reports commands)
    (h' : GroupWise ex planned s reports' commands') :
    (SortedMap.ofList reports).entries = (SortedMap.ofList reports').entries := by
  have hperm : reports.Perm reports' := by
    refine (List.perm_ext_iff_of_nodup (.of_map _ h.nodup) (.of_map _ h'.nodup)).mpr fun e => ?_
    constructor
    · intro he
      obtain ⟨g, hg, hmem⟩ := h.exists_group he
      exact (h'.mem_reports g hg e hmem).mpr ((h.mem_reports g hg e hmem).mp he)
    · intro he
      obtain ⟨g, hg, hmem⟩ := h'.exists_group he
      exact (h.mem_reports g hg e hmem).mpr ((h'.mem_reports g hg e hmem).mp he)
  refine SortedMap.entries_ofList_of_perm ?_ (SortedMap.ofList reports').sorted
  exact hperm.trans (SortedMap.entries_ofList_perm h'.nodup).symm

/-- **Runs that come to the same for each group have the same commands on each resource.** -/
theorem commands_eq (h : GroupWise ex planned s reports commands)
    (h' : GroupWise ex planned s reports' commands') (r : String) :
    ex.config.onResource r commands = ex.config.onResource r commands' := by
  by_cases hr : ∃ i, laneResources planned i r
  · obtain ⟨i, hi⟩ := hr
    obtain ⟨g, hg, -⟩ := id hi
    rw [h.onResource_eq i g hg r hi, h'.onResource_eq i g hg r hi]
  · have hnone : ∀ {cs}, (∀ c ∈ cs, ∃ i, laneResources planned i (ex.config.resourceOf c)) →
        ex.config.onResource r cs = [] := fun howned =>
      ExecutorConfig.onResource_eq_nil fun c hc he => hr (by rw [← he]; exact howned c hc)
    rw [hnone h.owned, hnone h'.owned]

end GroupWise

/-! ## 3. Rows one after another -/

/-- The part of a run that is on the resources `R` is the run of the chains on `R`. -/
theorem filter_runNumbered (hex : ByResource ex log) {R : String → Prop} (mine : Nat → Bool) :
    ∀ {chains : List (Nat × PlannedDelta)},
      (∀ n ∈ chains, mine n.1 = true → ∀ a ∈ n.2.actions, OnR R a) →
      (∀ n ∈ chains, mine n.1 = false → ∀ a ∈ n.2.actions, OnR (fun r => ¬ R r) a) →
      ∀ {s s' : σ}, ex.config.Agree R (log s) (log s') →
        (ex.runNumbered chains s).value.filter (fun e => mine e.1) =
          (ex.runNumbered (chains.filter fun n => mine n.1) s').value ∧
        ∀ r, R r → ex.config.onResource r (ex.runNumbered chains s).commands =
          ex.config.onResource r
            (ex.runNumbered (chains.filter fun n => mine n.1) s').commands
  | [], _, _, _, _, _ => ⟨rfl, fun _ _ => rfl⟩
  | (i, p) :: rest, hmine, hother, s, s', hag => by
    have hmine' := fun n hn => hmine n (List.mem_cons_of_mem _ hn)
    have hother' := fun n hn => hother n (List.mem_cons_of_mem _ hn)
    -- along the list the two hosts agree on `R`: a chain on `R` runs on both of them, any other
    -- chain runs on one of them only, but not on `R`
    cases hi : mine i with
    | true =>
      have hlocal : LocalTo ex.config log R (ex.runDelta p) :=
        (localTo_runActions hex _ [] (hmine _ List.mem_cons_self hi)).andThen fun _ => .idle _
      obtain ⟨hv, hc⟩ := hlocal.same s s' hag
      obtain ⟨ihv, ihc⟩ := filter_runNumbered hex mine hmine' hother' (hlocal.agree hag)
      have hchains : List.filter (fun n : Nat × PlannedDelta => mine n.1) ((i, p) :: rest) =
          (i, p) :: rest.filter fun n => mine n.1 := List.filter_cons_of_pos hi
      rw [hchains, value_runNumbered_cons, value_runNumbered_cons, hv]
      constructor
      · rw [← ihv]
        exact List.filter_cons_of_pos (p := fun e : Nat × DeltaReport => mine e.1) hi
      · intro r hr
        rw [commands_runNumbered_cons, commands_runNumbered_cons,
          ExecutorConfig.onResource_append, ExecutorConfig.onResource_append, hc, ihc r hr]
    | false =>
      have hlocal : LocalTo ex.config log (fun r => ¬ R r) (ex.runDelta p) :=
        (localTo_runActions hex _ [] (hother _ List.mem_cons_self hi)).andThen fun _ => .idle _
      have hkeeps : ex.config.Agree R (log (ex.runDelta p s).host) (log s') := fun r hr =>
        (hlocal.agree_outside (fun q hq hn => hn hq) s r hr).trans (hag r hr)
      obtain ⟨ihv, ihc⟩ := filter_runNumbered hex mine hmine' hother' hkeeps
      have hi' : ¬ mine i = true := by simp [hi]
      have hchains : List.filter (fun n : Nat × PlannedDelta => mine n.1) ((i, p) :: rest) =
          rest.filter fun n => mine n.1 := List.filter_cons_of_neg hi'
      rw [hchains, value_runNumbered_cons]
      constructor
      · rw [← ihv]
        exact List.filter_cons_of_neg (p := fun e : Nat × DeltaReport => mine e.1) hi'
      · intro r hr
        rw [commands_runNumbered_cons, ExecutorConfig.onResource_append,
          hlocal.outside (fun hn => hn hr), List.nil_append, ihc r hr]

/-- Chains at places, given which places are meant. -/
theorem filter_chainsAt (places : List Nat) (mine : Nat → Bool) :
    (chainsAt planned places).filter (fun n => mine n.1) =
      chainsAt planned (places.filter mine) := by
  induction places with
  | nil => rfl
  | cons i rest ih =>
    cases hi : mine i with
    | true =>
      rw [List.filter_cons_of_pos hi, chainsAt_cons, chainsAt_cons]
      cases planned[i]? with
      | none => exact ih
      | some p =>
        rw [← ih]
        exact List.filter_cons_of_pos (p := fun n : Nat × PlannedDelta => mine n.1) hi
    | false =>
      have hi' : ¬ mine i = true := by simp [hi]
      rw [List.filter_cons_of_neg hi', chainsAt_cons, ← ih]
      cases planned[i]? with
      | none => rfl
      | some p => exact List.filter_cons_of_neg (p := fun n : Nat × PlannedDelta => mine n.1) hi'

/-- **Rows one after another come, group by group, to what the groups come to by themselves**, if
    they keep the order of each group. -/
theorem groupWise_runNumbered (hex : ByResource ex log)
    (hcmd : ∀ p ∈ planned, ∀ a ∈ p.actions, a.isCommand = true) {places : List Nat}
    (hperm : places.Perm (List.range planned.length))
    (horder : ∀ g ∈ groupsOf planned, places.filter (· ∈ g) = g) (s : σ) :
    GroupWise ex planned s (ex.runNumbered (chainsAt planned places) s).value
      (ex.runNumbered (chainsAt planned places) s).commands := by
  have hplanned : ∀ n ∈ chainsAt planned places, planned[n.1]? = some n.2 :=
    fun n hn => (mem_chainsAt.mp hn).2
  -- the part of the run that belongs to a group is the run of the group by itself
  have hpart : ∀ (i : Nat) (g : List Nat), (groupsOf planned)[i]? = some g →
      (ex.runNumbered (chainsAt planned places) s).value.filter (fun e => decide (e.1 ∈ g)) =
        (ex.runNumbered (chainsAt planned g) s).value ∧
      ∀ r, laneResources planned i r →
        ex.config.onResource r (ex.runNumbered (chainsAt planned places) s).commands =
          ex.config.onResource r (ex.runNumbered (chainsAt planned g) s).commands := by
    intro i g hg
    have hmine : ∀ n ∈ chainsAt planned places, decide (n.1 ∈ g) = true →
        ∀ a ∈ n.2.actions, OnR (laneResources planned i) a :=
      fun n hn hm => onR_chainsAt hcmd hg (of_decide_eq_true hm) (hplanned n hn)
    have hother : ∀ n ∈ chainsAt planned places, decide (n.1 ∈ g) = false →
        ∀ a ∈ n.2.actions, OnR (fun r => ¬ laneResources planned i r) a :=
      fun n hn hm => onR_of_not_mem hcmd hg (of_decide_eq_false hm) (hplanned n hn)
    have hself : ex.config.Agree (laneResources planned i) (log s) (log s) := fun _ _ => rfl
    have h := filter_runNumbered hex (fun k => decide (k ∈ g)) hmine hother hself
    have hchains : (chainsAt planned places).filter (fun n => decide (n.1 ∈ g)) =
        chainsAt planned g :=
      (filter_chainsAt places fun k => decide (k ∈ g)).trans
        (congrArg _ (horder g (List.mem_of_getElem? hg)))
    rwa [hchains] at h
  refine ⟨?_, ?_, fun i g hg => (hpart i g hg).2, ?_⟩
  · rw [fst_runNumbered, fst_chainsAt fun i hi => List.mem_range.mp (hperm.mem_iff.mp hi)]
    exact hperm
  · intro g hg e he
    obtain ⟨i, hi⟩ := List.getElem?_of_mem hg
    rw [← (hpart i g hi).1, List.mem_filter, decide_eq_true_eq]
    exact (and_iff_left he).symm
  · have hlocal : LocalTo ex.config log (fun r => ∃ i, laneResources planned i r)
        (ex.runNumbered (chainsAt planned places)) := by
      refine localTo_runNumbered hex fun n hn a ha => ?_
      obtain ⟨h, -⟩ := exists_resource (hplanned n hn) ha
      obtain ⟨g, hg, hmem⟩ := Grouping.exists_group ⟨n.1, h⟩
      obtain ⟨i, hi⟩ := List.getElem?_of_mem hg
      obtain ⟨hc, hr⟩ := onR_chainsAt hcmd hi hmem (hplanned n hn) a ha
      exact ⟨hc, i, hr⟩
    exact hlocal.within s

/-! ## 4. Lanes that have come to their end -/

theorem getElem?_launch {s : σ} {i : Nat} {b : Lane}
    (h : (Flight.launch planned s).lanes[i]? = some b) :
    ∃ g, (groupsOf planned)[i]? = some g ∧ b = Lane.ofGroup planned g := by
  rw [show (Flight.launch planned s).lanes = (groupsOf planned).map (Lane.ofGroup planned) from rfl,
    List.getElem?_map] at h
  obtain ⟨g, hg, he⟩ := Option.map_eq_some_iff.mp h
  exact ⟨g, hg, he.symm⟩

/-- At the beginning every lane is on its way. -/
theorem onCourse_launch (hcmd : ∀ p ∈ planned, ∀ a ∈ p.actions, a.isCommand = true) (s : σ) :
    OnCourse ex (laneResources planned) (Flight.launch planned s).lanes s
      (.launch planned s) := by
  refine OnCourse.start fun i b hb => ?_
  obtain ⟨g, hg, rfl⟩ := getElem?_launch hb
  exact ⟨nofun, fun n hn => onR_chainsAt hcmd hg (mem_chainsAt.mp hn).1 (mem_chainsAt.mp hn).2⟩

/-- The places of the reports of a group are the group. -/
theorem fst_group {g : List Nat} (hg : g ∈ groupsOf planned) (s : σ) :
    (ex.runNumbered (chainsAt planned g) s).value.map (·.1) = g := by
  rw [fst_runNumbered]
  refine fst_chainsAt fun k hk => ?_
  rw [← length_resourcesOf]
  exact Grouping.lt_of_mem_group hg hk

section Over

variable {s : σ} {fl : Flight σ}

/-- A lane that is over has the reports of its group. -/
theorem finished_eq (h : OnCourse ex (laneResources planned) (Flight.launch planned s).lanes s fl)
    (hover : fl.isOver = true) :
    fl.lanes.map Lane.finished =
      (groupsOf planned).map fun g => (ex.runNumbered (chainsAt planned g) s).value := by
  refine List.ext_getElem? fun i => ?_
  rw [List.getElem?_map, List.getElem?_map]
  cases hl : fl.lanes[i]? with
  | none =>
    have hnone : (groupsOf planned)[i]? = none := by
      rw [List.getElem?_eq_none_iff] at hl ⊢
      rw [h.length] at hl
      exact (Nat.le_of_eq (List.length_map _).symm).trans hl
    rw [hnone]
    rfl
  | some l =>
    have hlt : i < (Flight.launch planned s).lanes.length := by
      rw [← h.length]
      exact (List.getElem?_eq_some_iff.mp hl).1
    have hb := List.getElem?_eq_getElem hlt
    obtain ⟨g, hg, hbg⟩ := getElem?_launch hb
    have hv := h.value i l _ hl hb
    rw [Lane.finish_of_isOver (List.all_eq_true.mp hover l (List.mem_of_getElem? hl)), hbg] at hv
    rw [hg]
    exact congrArg some hv

/-- **Lanes that are over have come, group by group, to what the groups come to by themselves.** -/
theorem groupWise_of_isOver
    (h : OnCourse ex (laneResources planned) (Flight.launch planned s).lanes s fl)
    (hover : fl.isOver = true) :
    GroupWise ex planned s (fl.lanes.flatMap Lane.finished) fl.commands := by
  have hfinished : fl.lanes.flatMap Lane.finished =
      (groupsOf planned).flatMap fun g => (ex.runNumbered (chainsAt planned g) s).value := by
    rw [List.flatMap_def, finished_eq h hover, ← List.flatMap_def]
  refine ⟨?_, ?_, ?_, h.owned⟩
  · rw [hfinished, List.map_flatMap, List.flatMap_congr fun g hg => fst_group hg s,
      List.flatMap_id']
    exact schedule_perm planned
  · intro g hg e he
    rw [hfinished, List.mem_flatMap]
    constructor
    · rintro ⟨g', hg', hmem⟩
      have he' : e.1 ∈ g' := by
        rw [← fst_group hg' s]
        exact List.mem_map_of_mem hmem
      obtain ⟨i, hi⟩ := List.getElem?_of_mem hg
      obtain ⟨j, hj⟩ := List.getElem?_of_mem hg'
      obtain rfl := Grouping.eq_of_mem_groups hi hj he he'
      cases Option.some.inj (hi.symm.trans hj)
      exact hmem
    · exact fun hmem => ⟨g, hg, hmem⟩
  · intro i g hg r hr
    have hb : (Flight.launch planned s).lanes[i]? = some (Lane.ofGroup planned g) := by
      show ((groupsOf planned).map _)[i]? = _
      rw [List.getElem?_map, hg]
      rfl
    have hlt : i < fl.lanes.length := by
      rw [h.length]
      exact (List.getElem?_eq_some_iff.mp hb).1
    have hl := List.getElem?_eq_getElem hlt
    have hc := h.commands i _ _ hl hb r hr
    rw [Lane.finish_of_isOver (List.all_eq_true.mp hover _ (List.getElem_mem hlt)),
      Ran.commands_idle, List.append_nil] at hc
    rw [hc]
    simp only [Lane.finish, Lane.ofGroup, Ran.commands_andThen, Ran.commands_idle,
      List.append_nil]

end Over

/-! ## 5. The schedule does not matter -/

/-- The chains of all rows one after another, in the order of the batch. -/
def runInOrder (ex : Executor σ) : List PlannedDelta → σ → Ran σ (List DeltaReport)
  | [], s => .idle [] s
  | p :: rest, s =>
    (ex.runDelta p s).andThen fun report s =>
      (ex.runInOrder rest s).andThen fun later s => .idle (report :: later) s

theorem runInOrder_eq (ex : Executor σ) : ∀ (chains : List (Nat × PlannedDelta)) (s : σ),
    ex.runInOrder (chains.map (·.2)) s =
      (ex.runNumbered chains s).andThen fun reports s => .idle (reports.map (·.2)) s
  | [], _ => rfl
  | (i, p) :: rest, s => by
    rw [List.map_cons]
    simp only [runInOrder, runNumbered, runInOrder_eq ex rest, Ran.andThen_assoc,
      Ran.idle_andThen, List.map_cons]

/-- **Whichever lane moves next, and however many may be under way**: a batch that has come to its
    end has the reports and, on each resource, the commands of the chains one after another in the
    order of the batch; there is one report for each row, in that order, with the actions of the row.
    The groups one after another come to the same. -/
theorem schedule_immaterial (hex : ByResource ex log)
    (hcmd : ∀ p ∈ planned, ∀ a ∈ p.actions, a.isCommand = true) {s : σ} {fl : Flight σ}
    (hfl : Interleaves ex (.launch planned s) fl) (hover : fl.isOver = true) :
    fl.reports = (ex.runInOrder planned s).value ∧
    (∀ r, ex.config.onResource r fl.commands =
      ex.config.onResource r (ex.runInOrder planned s).commands) ∧
    fl.reports.map DeltaReport.subject = planned.map PlannedDelta.subject ∧
    fl.reports = (ex.executeBatch planned s).value ∧
    ∀ r, ex.config.onResource r fl.commands =
      ex.config.onResource r (ex.executeBatch planned s).commands := by
  -- three ways to run the batch, and all of them come to the same group by group
  have hflight : GroupWise ex planned s (fl.lanes.flatMap Lane.finished) fl.commands :=
    groupWise_of_isOver (onCourse_of_interleaves (onCourse_launch hcmd s) hex
      (apart_laneResources planned) hfl) hover
  have hinOrder := groupWise_runNumbered hex hcmd (.refl _)
    (fun g hg => by rw [← length_resourcesOf]; exact Grouping.filter_range_group hg) s
  have hbatch := groupWise_runNumbered hex hcmd (schedule_perm planned)
    (fun g hg => Grouping.filter_flatten_group hg) s
  have hrun := runInOrder_eq ex (chainsAt planned (List.range planned.length)) s
  rw [snd_chainsAt_range] at hrun
  have hbatchReports : fl.reports = (ex.executeBatch planned s).value := by
    unfold executeBatch Flight.reports
    rw [runPlaces_eq, hflight.entries_eq hbatch]
    rfl
  refine ⟨?_, fun r => ?_, ?_, hbatchReports, fun r => ?_⟩
  · have hplaces : ((ex.runNumbered (chainsAt planned (List.range planned.length)) s).value.map
        (·.1)).Pairwise fun a b => compare a b = .lt := by
      rw [fst_runNumbered]
      exact List.pairwise_map.mpr (chainsAt_range_sorted planned)
    have hsorted := List.pairwise_map.mp hplaces
    unfold Flight.reports
    rw [hflight.entries_eq hinOrder, SortedMap.entries_ofList_of_perm (.refl _) hsorted, hrun]
    rfl
  · rw [hflight.commands_eq hinOrder r, hrun, Ran.commands_andThen, Ran.commands_idle,
      List.append_nil]
  · rw [hbatchReports]
    exact ex.subject_executeBatch planned s
  · unfold executeBatch
    rw [runPlaces_eq, Ran.commands_andThen, Ran.commands_idle, List.append_nil]
    exact hflight.commands_eq hbatch r

/-- Steps of lanes in a given order, if each of them can be taken. -/
def Flight.follow (ex : Executor σ) : List Nat → Flight σ → Option (Flight σ)
  | [], fl => some fl
  | i :: rest, fl => (fl.step ex i).bind (Flight.follow ex rest)

theorem interleaves_follow : ∀ {order : List Nat} {fl fl' : Flight σ},
    fl.follow ex order = some fl' → Interleaves ex fl fl'
  | [], _, _, h => by
    cases h
    exact .start
  | _ :: _, _, _, h => by
    obtain ⟨_, hs, h⟩ := Option.bind_eq_some_iff.mp h
    exact (interleaves_follow h).after hs

/-- A host that remembers its commands, and on which a command fails if there was one on its resource
    before. -/
def firstOnly (cfg : ExecutorConfig) : Host (List CommandSpec) where
  run c log := (.ok ⟨(cfg.onResource (cfg.resourceOf c) log).length, "", ""⟩, log ++ [c])
  writeFile _ _ log := (.ok (), log)
  removeFile _ log := (.ok (), log)

theorem byResource_firstOnly (cfg : ExecutorConfig) :
    ByResource ⟨firstOnly cfg, cfg, "reconcile"⟩ id where
  logged _ _ := rfl
  answers c s s' h := by
    have hlength := congrArg List.length h
    show Except.ok (ExecResult.mk _ "" "") = Except.ok (ExecResult.mk _ "" "")
    exact congrArg (fun n : Nat => Except.ok (ExecResult.mk n "" "")) hlength

/-- Three rows; the first and the last are about one unit. -/
def twoUnits : List PlannedDelta :=
  [⟨⟨⟨"FEATURE", "ntp"⟩, none, some .empty⟩, [.service "ntp.service" .start]⟩,
    ⟨⟨⟨"FEATURE", "lldp"⟩, none, some .empty⟩, [.service "lldp.service" .start]⟩,
    ⟨⟨⟨"NTP", "global"⟩, none, some .empty⟩, [.managerReload, .service "ntp.service" .restart]⟩]

/-- Two lanes that take turns come to what the rows in order come to, on a host on which the second
    command on a unit fails. -/
theorem schedule_immaterial_turns :
    let ex : Executor (List CommandSpec) :=
      ⟨firstOnly { maxParallel := 2 }, { maxParallel := 2 }, "reconcile"⟩
    ∃ fl, (Flight.launch twoUnits []).follow ex [0, 1, 1, 0, 1, 0, 0, 0, 0, 0] = some fl ∧
      fl.isOver = true ∧ fl.reports = (ex.runInOrder twoUnits []).value ∧
      (∀ r, ex.config.onResource r fl.commands =
        ex.config.onResource r (ex.runInOrder twoUnits []).commands) ∧
      fl.reports.map DeltaReport.subject = twoUnits.map PlannedDelta.subject ∧
      fl.reports = (ex.executeBatch twoUnits []).value ∧
      ∀ r, ex.config.onResource r fl.commands =
        ex.config.onResource r (ex.executeBatch twoUnits []).commands := by
  intro ex
  have hover : ((Flight.launch twoUnits []).follow ex [0, 1, 1, 0, 1, 0, 0, 0, 0, 0]).map
      Flight.isOver = some true := by decide +kernel
  obtain ⟨fl, hfl, hend⟩ := Option.map_eq_some_iff.mp hover
  exact ⟨fl, hfl, hend, schedule_immaterial (byResource_firstOnly _) (by decide)
    (interleaves_follow hfl) hend⟩

end Converge.Executor
