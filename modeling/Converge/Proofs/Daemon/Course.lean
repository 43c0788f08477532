import Converge.Proofs.Daemon.Entries

/-!
# What attempts have done, and the course of a key

The actions of an attempt that succeeded are what it has done to the host, whether the attempt
succeeded as a whole or not.

* `effectsIn`, `Attempt.effects`, `effectsOf`: the actions that succeeded, in order; `verbsOn` and
  `lastContent` are what they mean for one unit and for one file;
* `Genuine.succeeded_iff_effects`: an attempt succeeded exactly if its effects are its whole plan;
  **`Genuine.effects_prefix`**: of a plan on one resource, the effects are the actions up to the first
  that did not succeed;
* `Course d id row past`: attempts on one key, each from the row that the one before it has left;
  **`Lived.course`**: the attempts of a daemon on a key are such a course, and it leads to the applied
  row;
* `onKey_pass_cases`: the one attempt of a full pass on a key, if there is any;
* `Lived.row?_eq`: if all of them succeeded, that is the row which the store last told.
-/

namespace Converge

/-! ## 1. The actions that succeeded -/

/-- The actions that succeeded, in order. -/
def effectsIn (reports : List ActionReport) : List Action :=
  (reports.filter fun x => x.outcome.isSuccess).map (·.action)

/-- What an attempt has done to the host. -/
def Attempt.effects (a : Attempt) : List Action := a.report.elim [] fun r => effectsIn r.reports

/-- What attempts have done to the host, oldest first. -/
def effectsOf (past : List Attempt) : List Action := past.flatMap Attempt.effects

@[simp] theorem effectsOf_nil : effectsOf [] = [] := rfl

theorem effectsOf_append (first later : List Attempt) :
    effectsOf (first ++ later) = effectsOf first ++ effectsOf later :=
  List.flatMap_append

@[simp] theorem effectsOf_singleton (a : Attempt) : effectsOf [a] = a.effects :=
  List.flatMap_singleton _ _

theorem effectsIn_cons (x : ActionReport) (rest : List ActionReport) :
    effectsIn (x :: rest) =
      if x.outcome.isSuccess then x.action :: effectsIn rest else effectsIn rest := by
  unfold effectsIn
  cases hok : x.outcome.isSuccess <;> simp [hok]

theorem effectsIn_sublist (reports : List ActionReport) :
    (effectsIn reports).Sublist (reports.map (·.action)) :=
  List.filter_sublist.map _

/-- Every action succeeded exactly if none is missing among the effects. -/
theorem effectsIn_eq_iff (reports : List ActionReport) :
    effectsIn reports = reports.map (·.action) ↔ (reports.all fun x => x.outcome.isSuccess) := by
  rw [List.all_eq_true, ← List.length_filter_eq_length_iff]
  constructor
  · intro h
    have hlength := congrArg List.length h
    simpa [effectsIn] using hlength
  · intro h
    exact (effectsIn_sublist reports).eq_of_length (by simpa [effectsIn] using h)

/-! ## 2. What they mean for a unit and for a file -/

/-- The verbs on a unit, in order. -/
def verbsOn (unit : String) (actions : List Action) : List UnitVerb :=
  actions.filterMap fun
    | .service u verb => if u = unit then some verb else none
    | _ => none

/-- What is written to a file, in order. -/
def contentsAt (path : String) (actions : List Action) : List String :=
  actions.filterMap fun
    | .writeFile p content => if p = path then some content else none
    | _ => none

@[simp] theorem verbsOn_nil (unit : String) : verbsOn unit [] = [] := rfl

theorem verbsOn_append (unit : String) (first later : List Action) :
    verbsOn unit (first ++ later) = verbsOn unit first ++ verbsOn unit later :=
  List.filterMap_append

theorem contentsAt_append (path : String) (first later : List Action) :
    contentsAt path (first ++ later) = contentsAt path first ++ contentsAt path later :=
  List.filterMap_append

theorem mem_verbsOn {unit : String} {verb : UnitVerb} {actions : List Action} :
    verb ∈ verbsOn unit actions ↔ Action.service unit verb ∈ actions := by
  unfold verbsOn
  rw [List.mem_filterMap]
  constructor
  · rintro ⟨a, ha, he⟩
    split at he
    · obtain ⟨rfl, rfl⟩ : _ = unit ∧ _ = verb := by simpa using he
      exact ha
    · cases he
  · intro h
    exact ⟨_, h, if_pos rfl⟩

theorem mem_contentsAt {path content : String} {actions : List Action} :
    content ∈ contentsAt path actions ↔ Action.writeFile path content ∈ actions := by
  unfold contentsAt
  rw [List.mem_filterMap]
  constructor
  · rintro ⟨a, ha, he⟩
    split at he
    · obtain ⟨rfl, rfl⟩ : _ = path ∧ _ = content := by simpa using he
      exact ha
    · cases he
  · intro h
    exact ⟨_, h, if_pos rfl⟩

/-- The last content that is written to a file. -/
def lastContent (path : String) (actions : List Action) : Option String :=
  (contentsAt path actions).getLast?

theorem lastContent_append (path : String) (first later : List Action) :
    lastContent path (first ++ later) = (lastContent path later).or (lastContent path first) := by
  unfold lastContent
  rw [contentsAt_append, List.getLast?_append]

theorem lastContent_eq_none_iff {path : String} {actions : List Action} :
    lastContent path actions = none ↔ ∀ content, Action.writeFile path content ∉ actions := by
  unfold lastContent
  rw [List.getLast?_eq_none_iff, List.eq_nil_iff_forall_not_mem]
  exact forall_congr' fun content => not_congr mem_contentsAt

theorem mem_of_lastContent {path content : String} {actions : List Action}
    (h : lastContent path actions = some content) : Action.writeFile path content ∈ actions :=
  mem_contentsAt.mp (List.mem_of_getLast? h)

/-- If only one content is written to a file, it is the last one. -/
theorem lastContent_eq_some {path content : String} {actions : List Action}
    (hmem : Action.writeFile path content ∈ actions)
    (honly : ∀ other, Action.writeFile path other ∈ actions → other = content) :
    lastContent path actions = some content := by
  cases hlast : lastContent path actions with
  | none => exact absurd hmem (lastContent_eq_none_iff.mp hlast content)
  | some other => rw [honly other (mem_of_lastContent hlast)]

/-! ## 3. Chains -/

namespace Executor

variable {σ : Type} (ex : Executor σ)

/-- Behind an action on the same resource that did not succeed, nothing is done any more. -/
theorem effectsIn_of_spoiled (correlation : Option String) {r : String} :
    ∀ (spoiled : List String) (actions : List Action) (s : σ), r ∈ spoiled →
      (∀ a ∈ actions, a.resource = r) →
        effectsIn (ex.runActions correlation spoiled actions s).value = []
  | _, [], _, _, _ => rfl
  | spoiled, a :: rest, s, hr, hall => by
    have ha : spoiled.contains a.resource = true := by
      rw [hall a List.mem_cons_self, List.contains_iff_mem]
      exact hr
    have hskip : (ex.act correlation spoiled a s).value =
        .skipped (skipReason a.resource) := by
      show (ex.attempt spoiled a s).value = _
      unfold attempt
      rw [if_pos ha]
      rfl
    have hlater := effectsIn_of_spoiled correlation (a.resource :: spoiled) rest
      (ex.act correlation spoiled a s).host (List.mem_cons_of_mem a.resource hr)
      fun b hb => hall b (List.mem_cons_of_mem _ hb)
    show effectsIn (⟨a, (ex.act correlation spoiled a s).value⟩ :: _) = []
    rw [hskip, effectsIn_cons]
    exact hlater

/-- **On one resource the actions are done up to the first that does not succeed.** -/
theorem effectsIn_prefix (correlation : Option String) {r : String} :
    ∀ (spoiled : List String) (actions : List Action) (s : σ), (∀ a ∈ actions, a.resource = r) →
      effectsIn (ex.runActions correlation spoiled actions s).value <+: actions
  | _, [], _, _ => List.nil_prefix
  | spoiled, a :: rest, s, hall => by
    have hrest : ∀ b ∈ rest, b.resource = r := fun b hb => hall b (List.mem_cons_of_mem _ hb)
    show effectsIn (⟨a, (ex.act correlation spoiled a s).value⟩ ::
      (ex.runActions correlation (spoil spoiled a (ex.act correlation spoiled a s).value) rest
        (ex.act correlation spoiled a s).host).value) <+: a :: rest
    cases hok : (ex.act correlation spoiled a s).value.isSuccess with
    | true =>
      have hlater := effectsIn_prefix correlation
        (spoil spoiled a (ex.act correlation spoiled a s).value) rest
        (ex.act correlation spoiled a s).host hrest
      rw [effectsIn_cons, if_pos hok]
      exact (List.prefix_cons_inj a).mpr hlater
    | false =>
      have hr : r ∈ spoil spoiled a (ex.act correlation spoiled a s).value := by
        unfold spoil
        rw [hok, ← hall a List.mem_cons_self]
        exact List.mem_cons_self
      have hlater := ex.effectsIn_of_spoiled correlation _ rest
        (ex.act correlation spoiled a s).host hr hrest
      rw [effectsIn_cons, if_neg (by simp [hok]), hlater]
      exact List.nil_prefix

end Executor

/-! ## 4. Attempts -/

/-- Of things with different keys, one at most has a given key. -/
theorem filter_key_cases {α κ : Type} [DecidableEq κ] (f : α → κ) (k : κ) {l : List α}
    (h : (l.map f).Nodup) :
    (k ∉ l.map f ∧ (l.filter fun a => f a = k) = []) ∨
    (∃ a ∈ l, f a = k ∧ (l.filter fun a => f a = k) = [a]) := by
  by_cases hmem : k ∈ l.map f
  · obtain ⟨a, ha, hk⟩ := List.mem_map.mp hmem
    refine .inr ⟨a, ha, hk, ?_⟩
    have honly : ∀ b ∈ l.filter (fun a => f a = k), b = a := fun b hb => by
      obtain ⟨hb, hkb⟩ := List.mem_filter.mp hb
      exact List.inj_on_of_nodup_map h hb ha ((of_decide_eq_true hkb).trans hk.symm)
    have hself : a ∈ l.filter (fun a => f a = k) := List.mem_filter.mpr ⟨ha, decide_eq_true hk⟩
    have hnodup : (l.filter fun a => f a = k).Nodup := h.of_map.filter _
    refine List.perm_singleton.mp
      ((List.perm_ext_iff_of_nodup hnodup (List.nodup_singleton a)).mpr fun b => ?_)
    rw [List.mem_singleton]
    exact ⟨honly b, fun hb => hb ▸ hself⟩
  · refine .inl ⟨hmem, List.filter_eq_nil_iff.mpr fun a ha hk => hmem ?_⟩
    rw [← of_decide_eq_true hk]
    exact List.mem_map_of_mem ha

namespace Daemon

variable {σ : Type} {d : Daemon σ} {a : Attempt}

/-- What was refused has no effects. -/
theorem Genuine.effects_of_refused (h : d.Genuine a) {e : Error}
    (hplan : d.registry.plan a.delta = .error e) : a.effects = [] := by
  rcases h with ⟨-, -, hnone⟩ | ⟨actions, -, hok, -⟩
  · unfold Attempt.effects
    rw [hnone]
    rfl
  · rw [hplan] at hok
    cases hok

/-- An attempt with a plan has the report of its chain. -/
theorem Genuine.exists_run (h : d.Genuine a) {actions : List Action}
    (hplan : d.registry.plan a.delta = .ok actions) :
    ∃ s, a.report = some ⟨a.delta.id,
      (d.executor.runActions (some a.delta.id.full) [] actions s).value⟩ := by
  rcases h with ⟨e, herr, -⟩ | ⟨actions', s, hok, hreport⟩
  · rw [hplan] at herr
    cases herr
  · rw [hplan] at hok
    cases hok
    exact ⟨s, hreport⟩

/-- **An attempt succeeded exactly if its effects are its whole plan.** -/
theorem Genuine.succeeded_iff_effects (h : d.Genuine a) {actions : List Action}
    (hplan : d.registry.plan a.delta = .ok actions) :
    a.succeeded = true ↔ a.effects = actions := by
  obtain ⟨s, hreport⟩ := h.exists_run hplan
  have hiff := effectsIn_eq_iff
    (d.executor.runActions (some a.delta.id.full) [] actions s).value
  rw [d.executor.actions_runActions] at hiff
  unfold Attempt.succeeded Attempt.effects
  rw [hreport]
  exact hiff.symm

theorem Genuine.effects_sublist (h : d.Genuine a) {actions : List Action}
    (hplan : d.registry.plan a.delta = .ok actions) : a.effects.Sublist actions := by
  obtain ⟨s, hreport⟩ := h.exists_run hplan
  have hsub := effectsIn_sublist
    (d.executor.runActions (some a.delta.id.full) [] actions s).value
  rw [d.executor.actions_runActions] at hsub
  unfold Attempt.effects
  rw [hreport]
  exact hsub

/-- Of a plan on one resource, the effects are the actions up to the first that did not succeed. -/
theorem Genuine.effects_prefix (h : d.Genuine a) {actions : List Action}
    (hplan : d.registry.plan a.delta = .ok actions) {r : String}
    (hall : ∀ x ∈ actions, x.resource = r) : a.effects <+: actions := by
  obtain ⟨s, hreport⟩ := h.exists_run hplan
  unfold Attempt.effects
  rw [hreport]
  exact d.executor.effectsIn_prefix _ [] actions s hall

/-! ## 5. The attempts on one key -/

variable (d)

/-- The attempts on a key, oldest first. -/
def onKey (id : RowKey) (past : List Attempt) : List Attempt :=
  past.filter fun a => a.delta.id = id

/-- Attempts on a key, each from the row that the one before it has left. The row is the one that
    the last of them has left. -/
inductive Course (id : RowKey) : Option Row → List Attempt → Prop where
  | begin : Course id none []
  | attempt {row : Option Row} {past : List Attempt} (h : Course id row past) {a : Attempt}
    (hid : a.delta.id = id) (hold : a.delta.old = row) (hgenuine : d.Genuine a) :
    Course id a.known (past ++ [a])

variable {d}

theorem onKey_append (id : RowKey) (first later : List Attempt) :
    onKey id (first ++ later) = onKey id first ++ onKey id later :=
  List.filter_append ..

/-- If the attempts on the other keys do nothing, the effects are those of the attempts on the key. -/
theorem effectsOf_onKey {id : RowKey} :
    ∀ {past : List Attempt}, (∀ a ∈ past, a.delta.id ≠ id → a.effects = []) →
      effectsOf (onKey id past) = effectsOf past
  | [], _ => rfl
  | a :: past, h => by
    have ih := effectsOf_onKey fun b hb => h b (List.mem_cons_of_mem a hb)
    show effectsOf (onKey id ([a] ++ past)) = effectsOf ([a] ++ past)
    rw [onKey_append, effectsOf_append, effectsOf_append, ih]
    by_cases hid : a.delta.id = id
    · rw [onKey, List.filter_singleton, decide_eq_true hid, Bool.cond_true]
    · rw [onKey, List.filter_singleton, decide_eq_false hid, Bool.cond_false, effectsOf_nil,
        effectsOf_singleton, h a List.mem_cons_self hid]

/-- Of attempts on different keys, one at most is on a given key. -/
theorem onKey_cases (id : RowKey) {attempts : List Attempt}
    (hids : (attempts.map (·.delta.id)).Nodup) :
    (id ∉ attempts.map (·.delta.id) ∧ onKey id attempts = []) ∨
    (∃ a ∈ attempts, a.delta.id = id ∧ onKey id attempts = [a]) :=
  filter_key_cases (fun a : Attempt => a.delta.id) id hids

theorem mem_onKey {id : RowKey} {past : List Attempt} {a : Attempt} :
    a ∈ onKey id past ↔ a ∈ past ∧ a.delta.id = id := by
  unfold onKey
  rw [List.mem_filter, decide_eq_true_eq]

/-- The attempts of a full pass on a key: one from the applied row to that of the snapshot, or none if
    there is neither. -/
theorem onKey_pass_cases (k : Knowledge) (snapshot : Snapshot) (s : σ) (id : RowKey) :
    (k.applied.get? id = none ∧ snapshot.row? id = none ∧
      onKey id (d.attempts k.applied (passDeltas k.applied snapshot) s) = []) ∨
    ∃ a ∈ d.attempts k.applied (passDeltas k.applied snapshot) s,
      onKey id (d.attempts k.applied (passDeltas k.applied snapshot) s) = [a] ∧
        a.delta = ⟨id, k.applied.get? id, snapshot.row? id⟩ := by
  have hids := nodup_passDeltas k.applied snapshot
  have hnames := d.ids_attempts k.applied (passDeltas k.applied snapshot) s
  rcases onKey_cases id (hnames ▸ hids) with ⟨hnot, hnone⟩ | ⟨a, ha, rfl, hone⟩
  · rw [hnames, mem_ids_passDeltas, not_or, Option.not_isSome_iff_eq_none,
      Option.not_isSome_iff_eq_none] at hnot
    exact .inl ⟨hnot.2, hnot.1, hnone⟩
  · obtain ⟨hold, hnew, -⟩ := mem_passDeltas.mp (d.delta_mem ha)
    exact .inr ⟨a, ha, hone, by rw [← hold, ← hnew]⟩

/-- If nothing failed in a full pass, its attempts have all succeeded. -/
theorem succeeded_of_clean_pass {k : Knowledge} {snapshot : Snapshot} {s : σ}
    (hclean : (d.fullPass snapshot k s).value.2.failed = 0) :
    ∀ a ∈ d.attempts k.applied (passDeltas k.applied snapshot) s, a.succeeded = true := by
  rw [d.fullPass_eq s (nodup_passDeltas k.applied snapshot)] at hclean
  intro a ha
  simpa using List.countP_eq_zero.mp hclean a ha

/-- More attempts on different keys, each from the applied row. -/
theorem Course.noteAll {id : RowKey} {cache : Cache} {past attempts : List Attempt}
    (h : d.Course id (cache.get? id) (onKey id past))
    (hids : (attempts.map (·.delta.id)).Nodup)
    (hold : ∀ a ∈ attempts, a.delta.old = cache.get? a.delta.id)
    (hgenuine : ∀ a ∈ attempts, d.Genuine a) :
    d.Course id ((Daemon.noteAll cache attempts).get? id) (onKey id (past ++ attempts)) := by
  rw [onKey_append]
  rcases onKey_cases id hids with ⟨hnot, hnone⟩ | ⟨a, ha, rfl, hone⟩
  · rw [hnone, List.append_nil, get?_noteAll_of_not_mem hnot]
    exact h
  · have hknown : (Daemon.noteAll cache attempts).get? a.delta.id = a.known := by
      rw [get?_noteAll hids a ha, ← hold a ha]
      rfl
    rw [hone, hknown]
    exact h.attempt rfl (hold a ha) (hgenuine a ha)

/-- **The attempts on a key are a course, and it leads to the applied row.** -/
theorem Lived.course {k : Knowledge} {past : List Attempt} (h : Lived d k past) (id : RowKey) :
    d.Course id (k.applied.get? id) (onKey id past) := by
  induction h with
  | begin => exact .begin
  | @event k past _ e s ih =>
    rw [applied_reconcile]
    refine ih.noteAll ?_ (fun a ha => ?_) fun a ha => d.genuine_of_mem (nodup_eventDeltas k e) ha
    · rw [ids_attempts]
      exact nodup_eventDeltas k e
    · rw [mem_eventDeltas (d.delta_mem ha)]
  | @pass k past _ snapshot s ih =>
    have hids := nodup_passDeltas k.applied snapshot
    rw [d.fullPass_eq s hids]
    refine ih.noteAll ?_ (fun a ha => ?_) fun a ha => d.genuine_of_mem hids ha
    · rw [ids_attempts]
      exact hids
    · exact (mem_passDeltas.mp (d.delta_mem ha)).1

/-! ## 6. The row that the store last told -/

/-- A snapshot that only tracks tables has no row. -/
theorem row?_tracking (names : List String) (id : RowKey) :
    (Snapshot.tracking names).row? id = none := by
  suffices hempty : ∀ (names : List String) (tables : SortedMap String Table),
      (∀ t table, tables.get? t = some table → table = .empty) →
        ∀ t table, (names.foldl (fun m t => m.insert t .empty) tables).get? t = some table →
          table = (.empty : Table) by
    unfold Snapshot.row?
    cases htable : (Snapshot.tracking names).tables.get? id.table with
    | none => rfl
    | some table =>
      rw [hempty names .empty nofun id.table table htable]
      rfl
  intro names
  induction names with
  | nil => exact fun tables h => h
  | cons name rest ih =>
    intro tables h
    refine ih _ fun t table ht => ?_
    rw [SortedMap.get?_insert] at ht
    split at ht
    · exact (Option.some.inj ht).symm
    · exact h t table ht

theorem eventDeltas_eq (k : Knowledge) (e : ChangeEvent) :
    eventDeltas k e =
      if k.snapshot.tracks e.id.table = true ∧ k.applied.get? e.id ≠ e.leaves then
        [⟨e.id, k.applied.get? e.id, e.leaves⟩]
      else [] := by
  unfold eventDeltas
  rcases changeOf_eq k e with ⟨ht, err, hc⟩ | ⟨ht, snapshot, hc⟩
  · rw [hc, ht]
    rfl
  · rw [hc]
    by_cases hsame : k.applied.get? e.id = e.leaves
    · rw [if_pos hsame, if_neg fun h => h.2 hsame]
    · rw [if_neg hsame, if_pos ⟨ht, hsame⟩]

/-- **If all attempts on a key succeeded, its applied row is the one that the store last told.** -/
theorem Lived.row?_eq {k : Knowledge} {past : List Attempt} (h : Lived d k past) {id : RowKey}
    (hall : ∀ a ∈ past, a.delta.id = id → a.succeeded = true) :
    k.snapshot.row? id = k.applied.get? id := by
  induction h with
  | begin => exact row?_tracking d.tables id
  | @event k past _ e s ih =>
    have hbefore := ih fun a ha => hall a (List.mem_append_left _ ha)
    have hspares := d.spares_event k e s
    rw [row?_reconcile]
    by_cases hmem : id ∈ (d.attempts k.applied (eventDeltas k e) s).map (·.delta.id)
    · -- the event was worked on, and that has succeeded
      obtain ⟨a, ha, rfl⟩ := List.mem_map.mp hmem
      have hdelta := d.delta_mem ha
      have htracked : k.snapshot.tracks e.id.table = true := by
        rw [eventDeltas_eq] at hdelta
        split at hdelta
        · rename_i hcase
          exact hcase.1
        · cases hdelta
      rw [hspares.noted a ha (hall a (List.mem_append_right _ ha) rfl), mem_eventDeltas hdelta,
        if_pos ⟨rfl, htracked⟩]
    · rw [hspares.others id hmem]
      split
      · rename_i hcase
        obtain ⟨rfl, htracked⟩ := hcase
        -- without an attempt the event leaves the applied row
        rw [ids_attempts, eventDeltas_eq] at hmem
        by_contra hne
        exact hmem (by rw [if_pos ⟨htracked, Ne.symm hne⟩]; exact List.mem_singleton_self _)
      · exact hbefore
  | @pass k past _ snapshot s ih =>
    have hspares := d.spares_pass k snapshot s
    have hsnapshot : (d.fullPass snapshot k s).value.1.snapshot = snapshot := by
      rw [d.fullPass_eq s (nodup_passDeltas k.applied snapshot)]
    rw [hsnapshot]
    by_cases hmem : id ∈ (d.attempts k.applied (passDeltas k.applied snapshot) s).map (·.delta.id)
    · obtain ⟨a, ha, rfl⟩ := List.mem_map.mp hmem
      rw [hspares.noted a ha (hall a (List.mem_append_right _ ha) rfl)]
      exact (mem_passDeltas.mp (d.delta_mem ha)).2.1.symm
    · rw [hspares.others id hmem]
      rw [ids_attempts, mem_ids_passDeltas, not_or, Option.not_isSome_iff_eq_none,
        Option.not_isSome_iff_eq_none] at hmem
      rw [hmem.1, hmem.2]

/-! ## 7. Lives told by their events -/

/-- What a daemon knows after events, and what it has attempted, on a host that is in the same state
    at each of them. -/
def lifeOf (d : Daemon σ) (s : σ) (events : List ChangeEvent) : Knowledge × List Attempt :=
  events.foldl (fun (k, past) e =>
    ((d.reconcile e k s).value.1, past ++ d.attempts k.applied (eventDeltas k e) s)) (d.fresh, [])

theorem lived_lifeOf (d : Daemon σ) (s : σ) (events : List ChangeEvent) :
    Lived d (d.lifeOf s events).1 (d.lifeOf s events).2 := by
  induction events using List.reverseRecOn with
  | nil => exact .begin
  | append_singleton events e ih =>
    unfold lifeOf at ih ⊢
    rw [List.foldl_append]
    exact .event ih e s

end Daemon

end Converge
