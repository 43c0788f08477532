import Converge.Proofs.Daemon.Course
import Converge.Proofs.Files.Atomic

/-!
# Files that a daemon writes

A daemon works on a host whose state goes from one piece of work to the next. What a file holds is
what was last written to it, if nothing but the attempts on one key writes it.

* `Host.Tends`: what a host does with one file; `Host.OnDisk.tends`: so does every host that replaces
  files as a whole;
* `Follows`: the file has followed actions: it holds the last content, or what it held before.
  **`follows_reconcile`**, **`follows_fullPass`**: it follows the attempts on the key of events and full
  passes;
* `Works`: a life of a daemon on a host; **`Works.follows`**: the file follows the attempts on the key.
-/

namespace Converge

variable {σ α β : Type}

/-! ## 1. A host and one of its files -/

/-- What a host does with the file at a path; `holds` says what is in it. The paths of `foreign` are
    those of other files. -/
structure Host.Tends (h : Host σ) (path : String) (foreign : String → Prop)
    (holds : σ → String → Prop) : Prop where
  run : ∀ c s content, holds s content → holds (h.run c s).2 content
  wrote : ∀ content s, (h.writeFile path content s).1 = .ok () →
    holds (h.writeFile path content s).2 content
  failed : ∀ content s fault old, (h.writeFile path content s).1 = .error fault → holds s old →
    holds (h.writeFile path content s).2 old
  others : ∀ p content s old, foreign p → holds s old → holds (h.writeFile p content s).2 old

/-- The action writes no file but those at some paths, and removes none. -/
def Action.WritesOnly (allowed : String → Prop) : Action → Prop
  | .writeFile path _ => allowed path
  | .removeFile _ => False
  | _ => True

/-- Work that leaves a file alone. -/
def Calm (holds : σ → String → Prop) (f : σ → Ran σ α) : Prop :=
  ∀ s content, holds s content → holds (f s).host content

/-- The file has followed actions. -/
structure Follows (path : String) (holds : σ → String → Prop) (s s' : σ) (actions : List Action) :
    Prop where
  written : ∀ content, lastContent path actions = some content → holds s' content
  kept : lastContent path actions = none → ∀ content, holds s content → holds s' content

section Following

variable {path : String} {foreign : String → Prop} {holds : σ → String → Prop}

theorem Calm.idle (a : α) : Calm holds (Ran.idle a) := fun _ _ h => h

theorem Calm.andThen {f : σ → Ran σ α} {g : α → σ → Ran σ β} (hf : Calm holds f)
    (hg : ∀ a, Calm holds (g a)) : Calm holds fun s => (f s).andThen g :=
  fun s content h => hg (f s).value (f s).host content (hf s content h)

theorem Follows.of_calm {s s' : σ} {actions : List Action} (hnone : lastContent path actions = none)
    (h : ∀ content, holds s content → holds s' content) : Follows path holds s s' actions where
  written content hc := by
    rw [hnone] at hc
    cases hc
  kept _ := h

/-- What leaves the file alone may come behind. -/
theorem Follows.then_calm {s s' s'' : σ} {actions : List Action}
    (h : Follows path holds s s' actions)
    (hcalm : ∀ content, holds s' content → holds s'' content) :
    Follows path holds s s'' actions where
  written content hc := hcalm content (h.written content hc)
  kept hnone content hc := hcalm content (h.kept hnone content hc)

theorem Follows.trans {s s' s'' : σ} {first later : List Action} (h : Follows path holds s s' first)
    (h' : Follows path holds s' s'' later) : Follows path holds s s'' (first ++ later) := by
  constructor
  · intro content hc
    rw [lastContent_append] at hc
    cases hlater : lastContent path later with
    | some other =>
      rw [hlater, Option.some_or] at hc
      exact h'.written content (hlater.trans hc)
    | none =>
      rw [hlater, Option.none_or] at hc
      exact h'.kept hlater content (h.written content hc)
  · intro hnone content hc
    rw [lastContent_append, Option.or_eq_none_iff] at hnone
    exact h'.kept hnone.1 content (h.kept hnone.2 content hc)

/-! ## 2. Chains and batches -/

namespace Executor

variable {ex : Executor σ}

theorem calm_act (h : ex.host.Tends path foreign holds) (correlation : Option String)
    (spoiled : List String) {a : Action} (ha : a.WritesOnly foreign) :
    Calm holds (ex.act correlation spoiled a) := by
  intro s content hc
  show holds (ex.attempt spoiled a s).host content
  unfold attempt
  split
  · exact hc
  · cases a with
    | service unit verb => exact h.run _ s content hc
    | rule change spec => exact h.run _ s content hc
    | managerReload => exact h.run _ s content hc
    | writeFile p text => exact h.others p text s content ha hc
    | removeFile p => exact ha.elim

/-- A chain that writes other files only leaves the file alone. -/
theorem calm_runActions (h : ex.host.Tends path foreign holds) (correlation : Option String) :
    ∀ (spoiled : List String) (actions : List Action), (∀ a ∈ actions, a.WritesOnly foreign) →
      Calm holds (ex.runActions correlation spoiled actions)
  | _, [], _ => .idle _
  | spoiled, a :: rest, hall =>
    (calm_act h correlation spoiled (hall a List.mem_cons_self)).andThen fun _ =>
      (calm_runActions h correlation _ rest fun b hb => hall b (List.mem_cons_of_mem _ hb)).andThen
        fun _ => .idle _

/-- One action of a chain. -/
theorem follows_act (h : ex.host.Tends path foreign holds) (correlation : Option String)
    (spoiled : List String) {a : Action} (ha : a.WritesOnly (· = path)) (s : σ) :
    Follows path holds s (ex.act correlation spoiled a s).host
      (effectsIn [⟨a, (ex.act correlation spoiled a s).value⟩]) := by
  show Follows path holds s (ex.attempt spoiled a s).host
    (effectsIn [⟨a, (ex.attempt spoiled a s).value⟩])
  unfold attempt
  split
  · exact .of_calm rfl fun _ hc => hc
  · have hother : ∀ o : ActionOutcome, (∀ p text, a ≠ .writeFile p text) →
        lastContent path (effectsIn [⟨a, o⟩]) = none := fun o hne => by
      refine lastContent_eq_none_iff.mpr fun content hmem => ?_
      obtain ⟨x, hx, hxa⟩ := List.mem_map.mp hmem
      obtain rfl := List.mem_singleton.mp (List.mem_of_mem_filter hx)
      exact hne _ _ hxa
    cases a with
    | service unit verb => exact .of_calm (hother _ nofun) (h.run _ s)
    | rule change spec => exact .of_calm (hother _ nofun) (h.run _ s)
    | managerReload => exact .of_calm (hother _ nofun) (h.run _ s)
    | removeFile p => exact ha.elim
    | writeFile p text =>
      obtain rfl : p = path := ha
      show Follows p holds s (ex.host.writeFile p text s).2
        (effectsIn [⟨.writeFile p text, outcomeOfFile p (ex.host.writeFile p text s).1⟩])
      cases hr : (ex.host.writeFile p text s).1 with
      | ok =>
        have hlast : lastContent p [.writeFile p text] = some text := by
          simp [lastContent, contentsAt]
        refine ⟨fun content hc => ?_, fun hnone => ?_⟩
        · rw [show content = text from Option.some.inj (hc.symm.trans hlast)]
          exact h.wrote text s hr
        · cases hnone.symm.trans hlast
      | error fault => exact .of_calm rfl fun content hc => h.failed text s fault content hr hc

/-- A chain that writes no other file. -/
theorem follows_runActions (h : ex.host.Tends path foreign holds) (correlation : Option String) :
    ∀ (spoiled : List String) (actions : List Action) (s : σ),
      (∀ a ∈ actions, a.WritesOnly (· = path)) →
        Follows path holds s (ex.runActions correlation spoiled actions s).host
          (effectsIn (ex.runActions correlation spoiled actions s).value)
  | _, [], _, _ => .of_calm rfl fun _ hc => hc
  | spoiled, a :: rest, s, hall => by
    have hfirst := follows_act h correlation spoiled (hall a List.mem_cons_self) s
    have hrest := follows_runActions h correlation
      (spoil spoiled a (ex.act correlation spoiled a s).value) rest
      (ex.act correlation spoiled a s).host fun b hb => hall b (List.mem_cons_of_mem _ hb)
    have hboth := hfirst.trans hrest
    unfold effectsIn at hboth ⊢
    rwa [← List.map_append, ← List.filter_append] at hboth

/-- What the reports on one row say that was done. -/
def effectsOn (id : RowKey) (reports : List DeltaReport) : List Action :=
  (reports.filter fun r => r.id = id).flatMap fun r => effectsIn r.reports

/-- The files that the plans for the rows of a batch may write: that at the path for one of the rows,
    and others for the other rows. -/
def Minds (id : RowKey) (path : String) (foreign : String → Prop) (p : PlannedDelta) : Prop :=
  ∀ a ∈ p.actions, a.WritesOnly fun file => if p.delta.id = id then file = path else foreign file

theorem effectsOn_singleton (id : RowKey) (r : DeltaReport) :
    effectsOn id [r] = if r.id = id then effectsIn r.reports else [] := by
  unfold effectsOn
  rw [List.filter_singleton]
  by_cases h : r.id = id <;> simp [h]

theorem follows_runDelta (h : ex.host.Tends path foreign holds) {id : RowKey} {p : PlannedDelta}
    (hp : Minds id path foreign p) (s : σ) :
    Follows path holds s (ex.runDelta p s).host (effectsOn id [(ex.runDelta p s).value]) := by
  have hrow : (ex.runDelta p s).value.id = p.delta.id := rfl
  unfold Minds at hp
  rw [effectsOn_singleton, hrow]
  by_cases hid : p.delta.id = id
  · simp only [if_pos hid] at hp ⊢
    exact follows_runActions h _ [] p.actions s hp
  · simp only [if_neg hid] at hp ⊢
    exact .of_calm rfl (calm_runActions h _ [] p.actions hp s)

theorem follows_runNumbered (h : ex.host.Tends path foreign holds) {id : RowKey} :
    ∀ (chains : List (Nat × PlannedDelta)) (s : σ), (∀ n ∈ chains, Minds id path foreign n.2) →
      Follows path holds s (ex.runNumbered chains s).host
        (effectsOn id ((ex.runNumbered chains s).value.map (·.2)))
  | [], _, _ => .of_calm rfl fun _ hc => hc
  | (i, p) :: rest, s, hall => by
    have hfirst := follows_runDelta h (hall (i, p) List.mem_cons_self) s
    have hrest := follows_runNumbered h rest (ex.runDelta p s).host fun n hn =>
      hall n (List.mem_cons_of_mem _ hn)
    have hboth := hfirst.trans hrest
    unfold effectsOn at hboth ⊢
    rwa [← List.flatMap_append, ← List.filter_append] at hboth

/-- The order of reports on different rows does not matter. -/
theorem effectsOn_perm {id : RowKey} {reports reports' : List DeltaReport}
    (hp : reports.Perm reports') (hids : (reports'.map (·.id)).Nodup) :
    effectsOn id reports = effectsOn id reports' := by
  have hfilter := hp.filter fun r => r.id = id
  unfold effectsOn
  rcases filter_key_cases DeltaReport.id id hids with ⟨-, hnone⟩ | ⟨r, -, -, hone⟩
  · rw [hnone] at hfilter ⊢
    rw [hfilter.eq_nil]
  · rw [hone] at hfilter ⊢
    rw [hfilter.eq_singleton]

theorem follows_executeBatch (h : ex.host.Tends path foreign holds) {id : RowKey}
    {planned : List PlannedDelta} (hids : (planned.map (·.delta.id)).Nodup)
    (hall : ∀ p ∈ planned, Minds id path foreign p) (s : σ) :
    Follows path holds s (ex.executeBatch planned s).host
      (effectsOn id (ex.executeBatch planned s).value) := by
  have hplaces : ∀ i ∈ schedule planned, i < planned.length := fun i hi =>
    List.mem_range.mp ((schedule_perm planned).mem_iff.mp hi)
  have hminds : ∀ n ∈ chainsAt planned (schedule planned), Minds id path foreign n.2 := fun n hn =>
    hall n.2 (List.mem_of_getElem? (mem_chainsAt.mp hn).2)
  have hrun := follows_runNumbered h (chainsAt planned (schedule planned)) s hminds
  have hnodup : ((ex.runNumbered (chainsAt planned (schedule planned)) s).value.map (·.1)).Nodup := by
    rw [fst_runNumbered, fst_chainsAt hplaces]
    exact (schedule_perm planned).nodup_iff.mpr List.nodup_range
  -- the reports were made in the order of the schedule
  have hperm : ((ex.runNumbered (chainsAt planned (schedule planned)) s).value.map (·.2)).Perm
      (ex.executeBatch planned s).value := by
    unfold executeBatch
    rw [runPlaces_eq]
    exact ((SortedMap.entries_ofList_perm hnodup).map _).symm
  have hreports : ((ex.executeBatch planned s).value.map (·.id)).Nodup := by
    rwa [ids_executeBatch]
  rw [effectsOn_perm hperm hreports] at hrun
  unfold executeBatch at hrun ⊢
  rw [runPlaces_eq] at hrun ⊢
  exact hrun

end Executor

/-! ## 3. Events and full passes -/

namespace Daemon

variable {d : Daemon σ}

/-- Publishing leaves the file alone. -/
def PublishesCalmly (d : Daemon σ) (holds : σ → String → Prop) : Prop :=
  ∀ delta ok s content, holds s content → holds (d.publish delta ok s) content

theorem calm_sortOut (hpub : d.PublishesCalmly holds) (cache : Cache) :
    ∀ deltas : List RowDelta, Calm holds (d.sortOut cache deltas)
  | [] => .idle _
  | delta :: rest => by
    intro s content hc
    unfold sortOut
    cases d.registry.plan delta with
    | ok actions => exact calm_sortOut hpub cache rest s content hc
    | error e => exact calm_sortOut hpub cache rest _ content (hpub delta false s content hc)

theorem calm_settle (hpub : d.PublishesCalmly holds) :
    ∀ (rows : List (RowDelta × DeltaReport)) (cache : Cache), Calm holds (d.settle rows cache)
  | [], _ => .idle _
  | (delta, report) :: rest, _ => fun s content hc =>
    calm_settle hpub rest _ _ content (hpub delta report.allSucceeded s content hc)

/-- Attempts have done what their reports tell. -/
theorem effectsOf_eq_reported : ∀ attempts : List Attempt,
    effectsOf attempts = (reported attempts).flatMap fun e => effectsIn e.2.reports
  | [] => rfl
  | ⟨_, none⟩ :: rest => effectsOf_eq_reported rest
  | ⟨_, some r⟩ :: rest => congrArg (effectsIn r.reports ++ ·) (effectsOf_eq_reported rest)

theorem reported_onKey (id : RowKey) (attempts : List Attempt) :
    reported (onKey id attempts) = (reported attempts).filter fun e => e.1.id = id := by
  unfold reported onKey
  rw [List.filterMap_filter, List.filter_filterMap]
  congr 1
  funext a
  obtain ⟨delta, report⟩ := a
  by_cases hid : delta.id = id <;> cases report <;> simp [hid, Option.filter]

/-- Rows and the reports on them are on a given key together. -/
theorem snd_filter_zip (id : RowKey) : ∀ {deltas : List RowDelta} {reports : List DeltaReport},
    reports.map (·.id) = deltas.map (·.id) →
      ((deltas.zip reports).filter fun e => e.1.id = id).map (·.2) =
        reports.filter fun r => r.id = id
  | [], [], _ => rfl
  | delta :: deltas, r :: reports, h => by
    obtain ⟨hid, hrest⟩ : r.id = delta.id ∧ _ := List.cons.inj h
    have ih := snd_filter_zip id hrest
    rw [List.zip_cons_cons, List.filter_cons, List.filter_cons, ← ih, hid]
    split <;> rfl

/-- The reports on a row tell what the attempts on its key have done. -/
theorem effectsOn_passReports {id : RowKey} {cache : Cache} {deltas : List RowDelta} {s : σ}
    (hids : (deltas.map (·.id)).Nodup) :
    Executor.effectsOn id (d.passReports cache deltas s) =
      effectsOf (onKey id (d.attempts cache deltas s)) := by
  have hreports : (d.passReports cache deltas s).map (·.id) =
      ((deltas.filterMap d.planned?).map (·.delta)).map (·.id) := by
    rw [ids_passReports, List.map_map]
    rfl
  unfold Executor.effectsOn
  rw [effectsOf_eq_reported, reported_onKey, ← d.zip_passReports hids,
    ← snd_filter_zip id hreports, List.flatMap_map]

/-- The plans for attempts write the file at the path for one key, and others for other keys. -/
def MindsAll (d : Daemon σ) (id : RowKey) (path : String) (foreign : String → Prop)
    (attempts : List Attempt) : Prop :=
  ∀ a ∈ attempts, ∀ actions, d.registry.plan a.delta = .ok actions →
    Executor.Minds id path foreign ⟨a.delta, actions⟩

/-- **The file follows the attempts on its key in a full pass.** -/
theorem follows_fullPass (h : d.executor.host.Tends path foreign holds)
    (hpub : d.PublishesCalmly holds) {id : RowKey} {snapshot : Snapshot} {k : Knowledge} {s : σ}
    (hminds : d.MindsAll id path foreign (d.attempts k.applied (passDeltas k.applied snapshot) s)) :
    Follows path holds s (d.fullPass snapshot k s).host
      (effectsOf (onKey id (d.attempts k.applied (passDeltas k.applied snapshot) s))) := by
  have hids := nodup_passDeltas k.applied snapshot
  let sorted := d.sortOut k.applied (passDeltas k.applied snapshot) s
  let batch := d.executor.executeBatch sorted.value.planned sorted.host
  have hplanned : sorted.value.planned = (passDeltas k.applied snapshot).filterMap d.planned? :=
    d.planned_sortOut k.applied _ s
  have hsorted : Follows path holds s sorted.host [] :=
    .of_calm rfl (calm_sortOut hpub k.applied _ s)
  have hbatch : Follows path holds sorted.host batch.host (Executor.effectsOn id batch.value) := by
    refine Executor.follows_executeBatch h ?_ (fun p hp => ?_) sorted.host
    · rw [hplanned]
      exact hids.sublist (d.ids_planned_sublist _)
    · rw [hplanned] at hp
      obtain ⟨delta, hdelta, hp⟩ := List.mem_filterMap.mp hp
      obtain ⟨rfl, hplan⟩ := d.planned?_eq_some_iff.mp hp
      rw [← d.deltas_attempts k.applied (passDeltas k.applied snapshot) s] at hdelta
      obtain ⟨a, ha, hdelta⟩ := List.mem_map.mp hdelta
      have hall := hminds a ha p.actions (by rw [hdelta]; exact hplan)
      rw [hdelta] at hall
      exact hall
  have hboth := hsorted.trans hbatch
  rw [List.nil_append] at hboth
  rw [← effectsOn_passReports hids]
  exact hboth.then_calm (calm_settle hpub _ k.applied batch.host)

theorem effectsOf_onKey_singleton (id : RowKey) (a : Attempt) :
    effectsOf (onKey id [a]) = if a.delta.id = id then a.effects else [] := by
  unfold onKey
  rw [List.filter_singleton]
  by_cases h : a.delta.id = id <;> simp [h]

/-- The file follows the attempt on its key in the work on one row. -/
theorem follows_work (h : d.executor.host.Tends path foreign holds) (hpub : d.PublishesCalmly holds)
    {id : RowKey} {delta : RowDelta} {cache : Cache} {s : σ}
    (hminds : d.MindsAll id path foreign (d.attempts cache [delta] s)) :
    Follows path holds s (d.work delta cache s).host
      (effectsOf (onKey id (d.attempts cache [delta] s))) := by
  unfold work
  cases hplan : d.registry.plan delta with
  | error err =>
    rw [d.attempts_of_refused hplan, effectsOf_onKey_singleton, show
      Attempt.effects ⟨delta, none⟩ = [] from rfl, ite_self]
    exact .of_calm rfl fun content hc => hpub delta false s content hc
  | ok actions =>
    rw [d.attempts_of_planned hplan] at hminds ⊢
    have hchain := Executor.follows_runDelta h (hminds _ (List.mem_singleton_self _) actions hplan) s
    rw [Executor.effectsOn_singleton] at hchain
    rw [effectsOf_onKey_singleton]
    simp only [Executor.executeBatch_singleton, Ran.andThen_assoc, Ran.idle_andThen]
    exact hchain.then_calm (hpub delta (d.executor.runDelta ⟨delta, actions⟩ s).value.allSucceeded _)

/-- **The file follows the attempt on its key in the work on one event.** -/
theorem follows_reconcile (h : d.executor.host.Tends path foreign holds)
    (hpub : d.PublishesCalmly holds) {id : RowKey} {k : Knowledge} {e : ChangeEvent} {s : σ}
    (hminds : d.MindsAll id path foreign (d.attempts k.applied (eventDeltas k e) s)) :
    Follows path holds s (d.reconcile e k s).host
      (effectsOf (onKey id (d.attempts k.applied (eventDeltas k e) s))) := by
  unfold eventDeltas at hminds ⊢
  unfold reconcile
  cases hchange : changeOf k e with
  | error err => exact .of_calm rfl fun _ hc => hc
  | ok change =>
    obtain ⟨snapshot, delta?⟩ := change
    cases delta? with
    | none => exact .of_calm rfl fun _ hc => hc
    | some delta =>
      simp only [hchange] at hminds
      exact follows_work h hpub hminds

/-! ## 4. Lives on a host -/

/-- A daemon that knows `k` has made the attempts `past`, and its host is `s`. In between, what is
    `calm` may happen to the host. -/
inductive Works (d : Daemon σ) (calm : σ → σ → Prop) : Knowledge → List Attempt → σ → Prop where
  | begin (s : σ) : Works d calm d.fresh [] s
  | event {k : Knowledge} {past : List Attempt} {s : σ} (h : Works d calm k past s) (e : ChangeEvent) :
    Works d calm (d.reconcile e k s).value.1
      (past ++ d.attempts k.applied (eventDeltas k e) s) (d.reconcile e k s).host
  | pass {k : Knowledge} {past : List Attempt} {s : σ} (h : Works d calm k past s)
    (snapshot : Snapshot) :
    Works d calm (d.fullPass snapshot k s).value.1
      (past ++ d.attempts k.applied (passDeltas k.applied snapshot) s) (d.fullPass snapshot k s).host
  | meanwhile {k : Knowledge} {past : List Attempt} {s s' : σ} (h : Works d calm k past s)
    (hcalm : calm s s') : Works d calm k past s'

/-- A life on a host is a life. -/
theorem Works.lived {calm : σ → σ → Prop} {k : Knowledge} {past : List Attempt} {s : σ}
    (h : Works d calm k past s) : Lived d k past := by
  induction h with
  | begin => exact .begin
  | @event _ _ s _ e ih => exact .event ih e s
  | @pass _ _ s _ snapshot ih => exact .pass ih snapshot s
  | meanwhile _ _ ih => exact ih

/-- What happens in between leaves the file alone. -/
def LeavesFile (holds : σ → String → Prop) (s s' : σ) : Prop :=
  ∀ content, holds s content → holds s' content

/-- **The file follows the attempts on its key**, if the plans for no other key write it. -/
theorem Works.follows (hhost : d.executor.host.Tends path foreign holds)
    (hpub : d.PublishesCalmly holds) {id : RowKey} {k : Knowledge} {past : List Attempt} {s : σ}
    (h : Works d (LeavesFile holds) k past s) (hminds : d.MindsAll id path foreign past) :
    ∃ s₀, Follows path holds s₀ s (effectsOf (onKey id past)) := by
  induction h with
  | begin s => exact ⟨s, .of_calm rfl fun _ hc => hc⟩
  | @event k past s _ e ih =>
    obtain ⟨s₀, hbefore⟩ := ih fun a ha => hminds a (List.mem_append_left _ ha)
    rw [onKey_append, effectsOf_append]
    exact ⟨s₀, hbefore.trans
      (follows_reconcile hhost hpub fun a ha => hminds a (List.mem_append_right _ ha))⟩
  | @pass k past s _ snapshot ih =>
    obtain ⟨s₀, hbefore⟩ := ih fun a ha => hminds a (List.mem_append_left _ ha)
    rw [onKey_append, effectsOf_append]
    exact ⟨s₀, hbefore.trans
      (follows_fullPass hhost hpub fun a ha => hminds a (List.mem_append_right _ ha))⟩
  | @meanwhile k past s s' _ hcalm ih =>
    obtain ⟨s₀, hbefore⟩ := ih hminds
    exact ⟨s₀, hbefore.then_calm hcalm⟩

end Daemon

end Following

/-! ## 5. Files in a tree -/

open Files (Tree Apart)

/-- The files of the host are in a tree. Writing replaces a file as a whole, or fails. -/
def Host.OnDisk (h : Host σ) (disk : σ → Tree) : Prop :=
  ∀ path content s, Files.Replaced (disk s) path content
    (disk (h.writeFile path content s).2, (h.writeFile path content s).1)

/-- The file at the path has the text as its content. -/
def FileHolds (disk : σ → Tree) (path : String) (s : σ) (content : String) : Prop :=
  (disk s).read path = .ok (Text.encode content)

/-- The path is that of another file, and so is that of the scratch file beside it. -/
structure ForeignTo (path p : String) : Prop where
  target : Apart p path
  scratch : ∀ name, Path.fileName? p = some name → Apart (Files.scratchPath p name) path

/-- **A host whose files are in a tree tends each of its files**, if its commands leave the file
    alone. -/
theorem Host.OnDisk.tends {h : Host σ} {disk : σ → Tree} (hdisk : h.OnDisk disk) {path : String}
    (hscratch : ∀ name, Path.fileName? path = some name → Apart (Files.scratchPath path name) path)
    (hrun : ∀ c s, Daemon.LeavesFile (FileHolds disk path) s (h.run c s).2) :
    h.Tends path (ForeignTo path) (FileHolds disk path) where
  run c s content hc := hrun c s content hc
  wrote content s hok := by
    have hreplaced := hdisk path content s
    rw [hok] at hreplaced
    exact hreplaced.read_of_ok
  failed content s fault old herr hold := by
    have hreplaced := hdisk path content s
    rw [herr] at hreplaced
    exact hreplaced.read_of_error hscratch hold
  others p content s old hforeign hold :=
    (hdisk p content s).read_of_apart hforeign.target hforeign.scratch hold

end Converge
