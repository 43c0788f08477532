import Converge.Proofs.Daemon.LifeCycle
import Converge.Proofs.Daemon.Site
import Converge.Proofs.Store.Tended

/-!
# The loop of a daemon and the rows on their way to it

Between the store and the snapshot of a daemon a row is on its way: pending in the queue of the
subscription, received but not yet worked on, or read with all the others before a full pass.
`Loop.upcoming` lists the rows of one key in the order in which the snapshot will have them.

* `Loop.Sound`: the subscription that the loop holds is tended, and all tracked tables are in its
  snapshots;
* `Later`: a list of upcoming rows after others dropped some of them or added the row of the store;
* `Goes`: a step leaves the row of the snapshot as it is, or it takes the first of the upcoming rows,
  and what is upcoming then is `Later`;
* **`step_goes`**: so does every step of the loop, unless it reads all rows while a broken subscription
  still holds a row that the store has no more (`Loop.relics`).
-/

namespace Converge

open Store (Memory SubId Tended)

/-! ## 1. What is on its way -/

namespace Stage

/-- The subscription that is held. -/
def sub? : Stage → Option SubId
  | .connecting (.subscribed _ sub) => some sub
  | .loaded sub _ | .between sub _ | .reading sub _ | .reloaded sub _ _ | .listening sub _
  | .polling sub _ _ | .received sub _ _ => some sub
  | _ => none

/-- The snapshot that waits for its full pass. -/
def snapshot? : Stage → Option Snapshot
  | .loaded _ snapshot | .reloaded _ _ snapshot => some snapshot
  | _ => none

/-- The row of a key that has left the store and is not yet in the snapshot of the daemon. -/
def incoming (id : RowKey) : Stage → List (Option Row)
  | .loaded _ snapshot | .reloaded _ _ snapshot => [snapshot.row? id]
  | .received _ _ e => if e.id = id then [e.leaves] else []
  | _ => []

/-- Next comes the first full pass of a connection. -/
def isLoaded : Stage → Bool
  | .loaded _ _ => true
  | _ => false

/-- Next comes the reading of all rows, with a subscription that is held. -/
def reads? : Stage → Option SubId
  | .connecting (.subscribed _ sub) | .reading sub _ => some sub
  | _ => none

theorem incoming_of_idle {s : Stage} (h : s.sub? = none) (id : RowKey) : s.incoming id = [] := by
  cases s <;> first | rfl | cases h

theorem sub?_of_reads? {s : Stage} {sub : SubId} (h : s.reads? = some sub) :
    s.sub? = some sub ∧ s.isLoaded = false := by
  cases s with
  | connecting dial =>
    cases dial with
    | subscribed backoff sub => exact ⟨h, rfl⟩
    | attempting backoff => cases h
    | pausing backoff moment => cases h
  | reading sub due => exact ⟨h, rfl⟩
  | _ => cases h

theorem snapshot?_of_idle {s : Stage} (h : s.sub? = none) : s.snapshot? = none := by
  cases s <;> first | rfl | cases h

/-- Rows that the next step works on are those that wait for their full pass. -/
theorem snapshot?_of_delivery? {s : Stage} {snapshot : Snapshot}
    (h : s.delivery? = some (.rows snapshot)) : s.snapshot? = some snapshot := by
  cases s with
  | loaded sub snapshot' | reloaded sub due snapshot' =>
    cases h
    rfl
  | _ => cases h

end Stage

namespace Loop

variable {τ : Type}

def store (l : Loop (Site τ)) : Memory := l.scene.host.store

/-- The rows as the daemon knows them. -/
def snapshot (l : Loop (Site τ)) : Snapshot := l.scene.known.snapshot

/-- The rows of a key that are on their way to the snapshot, in order. -/
def upcoming (l : Loop (Site τ)) (id : RowKey) : List (Option Row) :=
  l.stage.incoming id ++ l.stage.sub?.elim [] fun sub => l.store.told sub id

/-- The subscription of the loop is tended, and its snapshots have all tracked tables. -/
structure Sound (d : Daemon (Site τ)) (l : Loop (Site τ)) : Prop where
  tracks : ∀ t ∈ d.tables, l.snapshot.tracks t = true
  read : ∀ snapshot, l.stage.snapshot? = some snapshot → ∀ t ∈ d.tables, snapshot.tracks t = true
  tended : ∀ sub, l.stage.sub? = some sub → Tended l.store d.tables sub

/-- What a broken subscription is still to tell of a key although the store holds it no more, at a
    moment when all rows are read. -/
def relics (l : Loop (Site τ)) (id : RowKey) : List (Option Row) :=
  match l.stage.reads?.bind fun sub => l.store.queues.get? sub with
  | some q =>
    if q.broken && !l.store.disconnected then (q.rowsOf id).filter (· ≠ l.store.row? id) else []
  | none => []

end Loop

/-- Rows on their way, after some were dropped and the row of the store was added at the end. -/
def Later (row : Option Row) (before after : List (Option Row)) : Prop :=
  ∃ n, after.Sublist (before ++ List.replicate n row)

namespace Later

variable {row : Option Row} {before after : List (Option Row)}

theorem of_sublist (h : after.Sublist before) : Later row before after :=
  ⟨0, by simpa using h⟩

theorem of_sublist_append (h : after.Sublist (before ++ [row])) : Later row before after := ⟨1, h⟩

/-- Rows that are all what the store holds. -/
theorem of_forall_eq (h : ∀ r ∈ after, r = row) : Later row before after :=
  ⟨after.length, by
    conv => lhs; rw [List.eq_replicate_of_mem h]
    exact List.sublist_append_right _ _⟩

end Later

/-! ## 2. What a step does with them -/

section Steps

variable {τ : Type} {d : Daemon (Site τ)} {l l' : Loop (Site τ)} {id : RowKey}

/-- The row of the snapshot stays, or it is the first of those that were on their way. -/
def Goes (id : RowKey) (l l' : Loop (Site τ)) : Prop :=
  (l.stage.isLoaded = false ∧ l'.snapshot.row? id = l.snapshot.row? id ∧
    Later (l'.store.row? id) (l.upcoming id) (l'.upcoming id)) ∨
  Later (l'.store.row? id) (l.upcoming id) (l'.snapshot.row? id :: l'.upcoming id)

/-- A step keeps the loop sound and takes the rows in order. -/
def Steps (d : Daemon (Site τ)) (id : RowKey) (l l' : Loop (Site τ)) : Prop :=
  l'.Sound d ∧ Goes id l l'

/-- The subscription that is held after a step was held before it, beside the same store. -/
def Holds (l l' : Loop (Site τ)) : Prop :=
  ∀ sub, l'.stage.sub? = some sub → l.stage.sub? = some sub ∧ l'.store.config = l.store.config

theorem tended_of_config {m m' : Memory} (h : m'.config = m.config) {tables : List String}
    {sub : SubId} (ht : Tended m tables sub) : Tended m' tables sub := by
  show Tended m'.config tables sub
  rw [h]
  exact ht

theorem told_of_config {m m' : Memory} (h : m'.config = m.config) (sub : SubId) (id : RowKey) :
    m'.told sub id = m.told sub id := by
  show m'.config.told sub id = m.config.told sub id
  rw [h]

theorem Holds.tended (h : Holds l l') (hl : l.Sound d) (sub : SubId)
    (hsub : l'.stage.sub? = some sub) : Tended l'.store d.tables sub := by
  obtain ⟨hold, hconfig⟩ := h sub hsub
  exact tended_of_config hconfig (hl.tended sub hold)

theorem Holds.told (h : Holds l l') (id : RowKey) :
    (l'.stage.sub?.elim [] fun sub => l'.store.told sub id).Sublist
      (l.stage.sub?.elim [] fun sub => l.store.told sub id) := by
  cases hsub : l'.stage.sub? with
  | none => exact List.nil_sublist _
  | some sub =>
    obtain ⟨hold, hconfig⟩ := h sub hsub
    rw [hold, Option.elim_some, Option.elim_some, told_of_config hconfig]

/-- A loop without a subscription holds nothing. -/
theorem holds_of_idle (h : l'.stage.sub? = none) : Holds l l' := fun sub hsub => by
  rw [h] at hsub
  cases hsub

/-- A step without any work on rows. -/
theorem steps_wait (hl : l.Sound d) (hloaded : l.stage.isLoaded = false) (hholds : Holds l l')
    (hsnapshot : l'.snapshot = l.snapshot) (hin : l'.stage.incoming id = [])
    (hread : l'.stage.snapshot? = none) : Steps d id l l' := by
  refine ⟨⟨?_, fun s hs => ?_, hholds.tended hl⟩, .inl ⟨hloaded, ?_, .of_sublist ?_⟩⟩
  · rw [hsnapshot]
    exact hl.tracks
  · rw [hread] at hs
    cases hs
  · rw [hsnapshot]
  · unfold Loop.upcoming
    rw [hin, List.nil_append]
    exact (hholds.told id).trans (List.sublist_append_right _ _)

/-- A step after which the loop has no subscription. -/
theorem steps_idle (hl : l.Sound d) (hloaded : l.stage.isLoaded = false)
    (hsnapshot : l'.snapshot = l.snapshot) (hidle : l'.stage.sub? = none) : Steps d id l l' :=
  steps_wait hl hloaded (holds_of_idle hidle) hsnapshot (Stage.incoming_of_idle hidle id)
    (Stage.snapshot?_of_idle hidle)

/-! ### Accesses to the store -/

/-- A new subscription is open, and nothing is on its way. -/
theorem steps_subscribe (hl : l.Sound d) (hloaded : l.stage.isLoaded = false) {sub : SubId}
    {m : Memory} (hs : l.store.subscribe d.tables = (.ok sub, m)) (hsnapshot : l'.snapshot = l.snapshot)
    (hstore : l'.store = m) (hsub : l'.stage.sub? = some sub) (hin : l'.stage.incoming id = [])
    (hread : l'.stage.snapshot? = none) : Steps d id l l' := by
  obtain ⟨htended, -, htold⟩ := Tended.subscribe hs
  refine ⟨⟨?_, fun s hs => ?_, fun sub' hs => ?_⟩, .inl ⟨hloaded, ?_, .of_sublist ?_⟩⟩
  · rw [hsnapshot]
    exact hl.tracks
  · rw [hread] at hs
    cases hs
  · rw [hsub] at hs
    cases hs
    rw [hstore]
    exact htended
  · rw [hsnapshot]
  · unfold Loop.upcoming
    rw [hin, hsub, Option.elim_some, hstore, htold]
    exact List.nil_sublist _

/-- **All rows are read**: what the subscription is still to tell is what was read. -/
theorem steps_read (hl : l.Sound d) {sub : SubId} (hreads : l.stage.reads? = some sub)
    (hclean : l.relics id = []) {snapshot : Snapshot} (hup : l.store.disconnected = false)
    (htracks : ∀ t ∈ d.tables, snapshot.tracks t = true)
    (hrow : snapshot.row? id = l.store.row? id) (hsnapshot : l'.snapshot = l.snapshot)
    (hstore : l'.store = { l.store with loads := l.store.loads + 1 })
    (hsub' : l'.stage.sub? = some sub) (hin' : l'.stage.incoming id = [snapshot.row? id])
    (hread' : l'.stage.snapshot? = some snapshot) : Steps d id l l' := by
  obtain ⟨hsub, hloaded⟩ := Stage.sub?_of_reads? hreads
  have htended := hl.tended sub hsub
  have hrow' : l'.store.row? id = l.store.row? id := by rw [hstore]; rfl
  refine ⟨⟨?_, fun s hs => ?_, fun sub' hs => ?_⟩, .inl ⟨hloaded, ?_, .of_forall_eq fun r hr => ?_⟩⟩
  · rw [hsnapshot]
    exact hl.tracks
  · rw [hread'] at hs
    cases hs
    exact htracks
  · rw [hsub'] at hs
    cases hs
    rw [hstore]
    exact htended
  · rw [hsnapshot]
  · rw [hrow']
    unfold Loop.upcoming at hr
    rw [hin', hsub', List.singleton_append, List.mem_cons] at hr
    rcases hr with rfl | hr
    · exact hrow
    · -- a subscription that is fed tells the truth, and a broken one is clean
      obtain ⟨q, hq, -, hfed⟩ := htended
      have htold : l'.store.told sub id = q.rowsOf id := by
        rw [hstore]
        exact Memory.told_eq hq id
      rw [Option.elim_some, htold] at hr
      rcases hfed with hbroken | ⟨-, hfaith⟩
      · unfold Loop.relics at hclean
        rw [hreads, Option.bind_some, hq] at hclean
        simp only [hbroken, hup, Bool.not_false, Bool.and_self, if_pos] at hclean
        by_contra hne
        have hnot := List.filter_eq_nil_iff.mp hclean r hr
        exact hnot (decide_eq_true hne)
      · exact hfaith.eq_of_mem_rowsOf hr

/-- A poll, whether it yields an event or not. -/
theorem steps_poll (hl : l.Sound d) (hloaded : l.stage.isLoaded = false) {sub : SubId}
    (hsub : l.stage.sub? = some sub) (hin : l.stage.incoming id = [])
    (hsnapshot : l'.snapshot = l.snapshot) (hstore : l'.store = (l.store.poll sub).2)
    (hsub' : l'.stage.sub? = some sub) (hread : l'.stage.snapshot? = none)
    (hin' : l'.stage.incoming id ++ (l.store.poll sub).2.told sub id = l.store.told sub id) :
    Steps d id l l' := by
  obtain ⟨htended, -, -⟩ := (hl.tended sub hsub).poll
  refine ⟨⟨?_, fun s hs => ?_, fun sub' hs => ?_⟩, .inl ⟨hloaded, ?_, .of_sublist ?_⟩⟩
  · rw [hsnapshot]
    exact hl.tracks
  · rw [hread] at hs
    cases hs
  · rw [hsub'] at hs
    cases hs
    rw [hstore]
    exact htended
  · rw [hsnapshot]
  · unfold Loop.upcoming
    rw [hin, hsub, hsub', Option.elim_some, Option.elim_some, hstore, hin', List.nil_append]

/-! ### Full passes and events -/

variable {h : Host τ}

/-- Nothing of the store but its status rows changes in a full pass. -/
theorem config_pass (hhost : d.executor.host = Site.host h)
    (hsink : d.sink = none ∨ d.sink = some Site.sink) (sc : Scene (Site τ)) (snapshot : Snapshot) :
    (sc.pass d snapshot).2.host.store.config = sc.host.store.config := by
  have hpart := Daemon.part_fullPass (publishes_config hhost hsink) snapshot sc.known sc.host
  unfold publishAll at hpart
  rw [List.foldl_fixed] at hpart
  exact hpart

theorem config_meet (hhost : d.executor.host = Site.host h)
    (hsink : d.sink = none ∨ d.sink = some Site.sink) (sc : Scene (Site τ)) (e : ChangeEvent) :
    (sc.meet d e).2.host.store.config = sc.host.store.config := by
  have hpart := Daemon.part_reconcile (publishes_config hhost hsink) sc.known e sc.host
  unfold publishAll at hpart
  rw [List.foldl_fixed] at hpart
  rw [(Scene.meet_eq d sc e).2.2]
  exact hpart

/-- **A full pass over the rows that were read** takes over the first of the rows on their way. -/
theorem steps_pass (hl : l.Sound d) {snapshot : Snapshot} (hread : l.stage.snapshot? = some snapshot)
    (hin : l.stage.incoming id = [snapshot.row? id]) (hholds : Holds l l')
    (hsnapshot : l'.snapshot = snapshot) (hin' : l'.stage.incoming id = [])
    (hread' : l'.stage.snapshot? = none) : Steps d id l l' := by
  refine ⟨⟨?_, fun s hs => ?_, hholds.tended hl⟩, .inr (.of_sublist ?_)⟩
  · rw [hsnapshot]
    exact hl.read snapshot hread
  · rw [hread'] at hs
    cases hs
  · unfold Loop.upcoming
    rw [hin, hin', hsnapshot, List.nil_append, List.singleton_append]
    exact (hholds.told id).cons_cons _

/-- **The work on an event** takes over its row. -/
theorem steps_meet (hl : l.Sound d) (hid : id.table ∈ d.tables)
    (hloaded : l.stage.isLoaded = false) {e : ChangeEvent}
    (hin : l.stage.incoming id = if e.id = id then [e.leaves] else []) (hholds : Holds l l')
    (hsnapshot : l'.snapshot =
      (d.reconcile e l.scene.known l.scene.host).value.1.snapshot)
    (hin' : l'.stage.incoming id = []) (hread' : l'.stage.snapshot? = none) : Steps d id l l' := by
  have hsound : l'.Sound d := by
    refine ⟨fun t ht => ?_, fun s hs => ?_, hholds.tended hl⟩
    · rw [hsnapshot, Daemon.tracks_reconcile]
      exact hl.tracks t ht
    · rw [hread'] at hs
      cases hs
  have hrow : l'.snapshot.row? id =
      if id = e.id ∧ l.snapshot.tracks e.id.table = true then e.leaves else l.snapshot.row? id := by
    rw [hsnapshot]
    exact d.row?_reconcile l.scene.known e l.scene.host id
  refine ⟨hsound, ?_⟩
  by_cases hcase : e.id = id
  · subst hcase
    refine .inr (.of_sublist ?_)
    rw [hrow, if_pos ⟨rfl, hl.tracks _ hid⟩]
    unfold Loop.upcoming
    rw [hin, hin', if_pos rfl, List.nil_append, List.singleton_append]
    exact (hholds.told e.id).cons_cons _
  · refine .inl ⟨hloaded, ?_, .of_sublist ?_⟩
    · rw [hrow, if_neg fun hc => hcase hc.1.symm]
    · unfold Loop.upcoming
      rw [hin, hin', if_neg hcase]
      exact hholds.told id

/-! ## 3. One step of the loop -/

theorem subscribe_scene {sc : Scene (Site τ)} {tables : List String} {r : Except Error SubId}
    {m : Memory} (hs : sc.host.store.subscribe tables = (r, m)) :
    sc.subscribe Site.feed tables =
      (r, sc.accessed .subscribe r { sc.host with store := m }) := by
  show ((sc.host.store.subscribe tables).1, sc.accessed .subscribe (sc.host.store.subscribe tables).1
    { sc.host with store := (sc.host.store.subscribe tables).2 }) = _
  rw [hs]

theorem load_scene {sc : Scene (Site τ)} {tables : List String} {r : Except Error Snapshot}
    {m : Memory} (hs : sc.host.store.load tables = (r, m)) :
    sc.load Site.feed tables = (r, sc.accessed .load r { sc.host with store := m }) := by
  show ((sc.host.store.load tables).1, sc.accessed .load (sc.host.store.load tables).1
    { sc.host with store := (sc.host.store.load tables).2 }) = _
  rw [hs]

/-- A step of connecting. -/
theorem connecting_steps (hl : l.Sound d) (hid : id.table ∈ d.tables) (hclean : l.relics id = [])
    {dial : Dial} (hstage : l.stage = .connecting dial) (hstep : l.step d Site.feed = some l') :
    Steps d id l l' := by
  have hloaded : l.stage.isLoaded = false := by rw [hstage]; rfl
  have hfailed : ∀ {backoff e sc},
      dial.step d Site.feed l.stopAsked l.scene = Dial.afterFailure backoff e sc →
      sc.known = l.scene.known → Steps d id l l' := by
    intro backoff e sc hdial hknown
    have hsnapshot : sc.known.snapshot = l.snapshot := congrArg Knowledge.snapshot hknown
    unfold Loop.step at hstep
    simp only [hstage, hdial] at hstep
    rcases Dial.afterFailure_cases backoff e sc with ⟨b, moment, ha⟩ | ha | ha
    all_goals
      rw [ha] at hstep
      cases hstep
      exact steps_idle hl hloaded hsnapshot rfl
  cases dial with
  | attempting backoff =>
    by_cases hstop : l.stopAsked = true
    · unfold Loop.step at hstep
      simp only [hstage, Dial.step, if_pos hstop] at hstep
      cases hstep
      exact steps_idle hl hloaded rfl rfl
    · cases hs : l.store.subscribe d.tables with
      | mk r m =>
        cases r with
        | error e =>
          have hdial : Dial.step d Site.feed l.stopAsked (.attempting backoff) l.scene =
              Dial.afterFailure backoff e (l.scene.accessed .subscribe (.error e : Except Error SubId)
                { l.scene.host with store := m }) := by
            simp only [Dial.step, if_neg hstop, subscribe_scene hs]
          exact hfailed hdial rfl
        | ok sub =>
          unfold Loop.step at hstep
          simp only [hstage, Dial.step, if_neg hstop, subscribe_scene hs] at hstep
          cases hstep
          exact steps_subscribe hl hloaded hs rfl rfl rfl rfl rfl
  | subscribed backoff sub =>
    have hreads : l.stage.reads? = some sub := by rw [hstage]; rfl
    rcases l.store.load_cases d.tables with ⟨e, hload⟩ | ⟨hup, snapshot, hload, htracks, hrows⟩
    · have hdial : Dial.step d Site.feed l.stopAsked (.subscribed backoff sub) l.scene =
          Dial.afterFailure backoff e ((l.scene.accessed .load (.error e : Except Error Snapshot)
            { l.scene.host with store := l.store }).release Site.feed sub) := by
        simp only [Dial.step, load_scene hload]
      exact hfailed hdial rfl
    · unfold Loop.step at hstep
      simp only [hstage, Dial.step, load_scene hload] at hstep
      cases hstep
      exact steps_read hl hreads hclean hup htracks (hrows id hid) rfl rfl rfl rfl rfl
  | pausing backoff moment =>
    unfold Loop.step at hstep
    simp only [hstage, Dial.step] at hstep
    by_cases hstop : l.stopAsked = true
    · simp only [if_pos hstop] at hstep
      cases hstep
      exact steps_idle hl hloaded rfl rfl
    · simp only [if_neg hstop] at hstep
      by_cases hnow : moment ≤ l.scene.now
      · simp only [if_pos hnow] at hstep
        cases hstep
        exact steps_idle hl hloaded rfl rfl
      · simp only [if_neg hnow] at hstep
        cases hstep

/-- The same subscription is held beside the same store. -/
theorem holds_same {sub : SubId} (hsub : l.stage.sub? = some sub) (hsub' : l'.stage.sub? = some sub)
    (hconfig : l'.store.config = l.store.config) : Holds l l' := fun sub' hs => by
  rw [hsub'] at hs
  exact ⟨hsub.trans hs, hconfig⟩

/-- Between two events. -/
theorem choose_steps (hl : l.Sound d) (hloaded : l.stage.isLoaded = false) {sub : SubId}
    (hsub : l.stage.sub? = some sub) (due : Option Duration) :
    Steps d id l (l.choose d Site.feed sub due) := by
  unfold Loop.choose
  dsimp only
  split_ifs with hstop
  · exact steps_idle hl hloaded rfl rfl
  · cases nextReading d.settings l.scene.now with
    | some due => exact steps_wait hl hloaded (holds_same hsub rfl rfl) rfl rfl rfl
    | none => exact steps_idle hl hloaded rfl rfl
  · exact steps_wait hl hloaded (holds_same hsub rfl rfl) rfl rfl rfl

/-- The reading of all rows that was asked for. -/
theorem reading_steps (hl : l.Sound d) (hid : id.table ∈ d.tables) (hclean : l.relics id = [])
    {sub : SubId} {due : Option Duration} (hstage : l.stage = .reading sub due)
    (hstep : l.step d Site.feed = some l') : Steps d id l l' := by
  have hreads : l.stage.reads? = some sub := by rw [hstage]; rfl
  obtain ⟨hsub, hloaded⟩ := Stage.sub?_of_reads? hreads
  unfold Loop.step at hstep
  rcases l.store.load_cases d.tables with ⟨e, hload⟩ | ⟨hup, snapshot, hload, htracks, hrows⟩
  · simp only [hstage, load_scene hload] at hstep
    split_ifs at hstep with hlost
    · cases hstep
      exact steps_idle hl hloaded rfl rfl
    · cases hstep
      exact steps_wait hl hloaded (holds_same hsub rfl rfl) rfl rfl rfl
  · simp only [hstage, load_scene hload] at hstep
    cases hstep
    exact steps_read hl hreads hclean hup htracks (hrows id hid) rfl rfl rfl rfl rfl

/-- What a poll yields, or the end of the wait. -/
theorem hear_steps (hl : l.Sound d) {sub : SubId} {due : Option Duration} {deadline : Duration}
    (hstage : l.stage = .polling sub due deadline)
    (hstep : l.hear d Site.feed sub due deadline = some l') : Steps d id l l' := by
  have hloaded : l.stage.isLoaded = false := by rw [hstage]; rfl
  have hsub : l.stage.sub? = some sub := by rw [hstage]; rfl
  have hin : l.stage.incoming id = [] := by rw [hstage]; rfl
  obtain ⟨-, -, htold⟩ := (hl.tended sub hsub).poll
  have hpoll : Site.feed.poll sub l.scene.host =
    ((l.store.poll sub).1, { l.scene.host with store := (l.store.poll sub).2 }) := rfl
  unfold Loop.hear at hstep
  rw [hpoll] at hstep
  rcases htold with ⟨e, hanswer, htold⟩ | ⟨hno, htold⟩
  · rw [hanswer] at hstep
    cases hstep
    exact steps_poll hl hloaded hsub hin rfl rfl rfl rfl (htold id).symm
  · cases hanswer : (l.store.poll sub).1 with
    | none =>
      simp only [hanswer] at hstep
      split_ifs at hstep with hdeadline
      cases hstep
      exact steps_poll hl hloaded hsub hin rfl rfl rfl rfl (htold id)
    | some answer =>
      simp only [hanswer] at hstep
      cases answer with
      | nothing =>
        cases hstep
        exact steps_poll hl hloaded hsub hin rfl rfl rfl rfl (htold id)
      | event e => exact absurd hanswer (hno e)
      | failed e =>
        simp only at hstep
        split_ifs at hstep with hlost
        · cases hstep
          exact steps_idle hl hloaded rfl rfl
        · cases hstep
          exact steps_poll hl hloaded hsub hin rfl rfl rfl rfl (htold id)

/-- The first full pass of a connection. -/
theorem loaded_steps (hhost : d.executor.host = Site.host h)
    (hsink : d.sink = none ∨ d.sink = some Site.sink) (hl : l.Sound d) {sub : SubId}
    {snapshot : Snapshot} (hstage : l.stage = .loaded sub snapshot)
    (hstep : l.step d Site.feed = some l') : Steps d id l l' := by
  have hsub : l.stage.sub? = some sub := by rw [hstage]; rfl
  have hread : l.stage.snapshot? = some snapshot := by rw [hstage]; rfl
  have hin : l.stage.incoming id = [snapshot.row? id] := by rw [hstage]; rfl
  have hconfig := config_pass hhost hsink l.scene snapshot
  have hsnapshot := Scene.snapshot_pass d l.scene snapshot
  unfold Loop.step at hstep
  simp only [hstage] at hstep
  split at hstep
  · cases hstep
    exact steps_pass hl hread hin (holds_same hsub rfl hconfig) hsnapshot rfl rfl
  · cases hstep
    exact steps_pass hl hread hin (holds_of_idle rfl) hsnapshot rfl rfl

/-- **One step of the loop**: it keeps the loop sound, and the row of the snapshot stays or is the
    first of those that were on their way, unless relics are left while all rows are read. -/
theorem step_goes (hhost : d.executor.host = Site.host h)
    (hsink : d.sink = none ∨ d.sink = some Site.sink) (hl : l.Sound d) (hid : id.table ∈ d.tables)
    (hclean : l.relics id = []) (hstep : l.step d Site.feed = some l') : Steps d id l l' := by
  obtain ⟨stage, sc, stopAsked, resyncAsked⟩ := l
  cases stage with
  | begun =>
    obtain rfl := Option.some.inj hstep
    exact steps_idle hl rfl rfl rfl
  | outside =>
    unfold Loop.step at hstep
    dsimp only at hstep
    split_ifs at hstep with hstop
    · cases hstep
      exact steps_idle hl rfl rfl rfl
    · cases hstep
      exact steps_idle hl rfl rfl rfl
  | connecting dial => exact connecting_steps hl hid hclean rfl hstep
  | loaded sub snapshot => exact loaded_steps hhost hsink hl rfl hstep
  | between sub due =>
    obtain rfl := Option.some.inj hstep
    exact choose_steps hl rfl rfl due
  | reading sub due => exact reading_steps hl hid hclean rfl hstep
  | reloaded sub due snapshot =>
    obtain rfl := Option.some.inj hstep
    have hconfig := config_pass hhost hsink sc snapshot
    exact steps_pass hl rfl rfl (holds_same rfl rfl hconfig) (Scene.snapshot_pass d sc snapshot) rfl rfl
  | listening sub due =>
    unfold Loop.step at hstep
    dsimp only at hstep
    split at hstep
    · cases hstep
      exact steps_wait hl rfl (holds_same rfl rfl rfl) rfl rfl rfl
    · cases hstep
      exact steps_idle hl rfl rfl rfl
  | polling sub due deadline => exact hear_steps hl rfl hstep
  | received sub due e =>
    obtain rfl := Option.some.inj hstep
    have hconfig := config_meet hhost hsink sc e
    have hknown := congrArg Knowledge.snapshot (Scene.meet_eq d sc e).2.1
    exact steps_meet hl hid rfl rfl (holds_same rfl rfl hconfig) hknown rfl rfl
  | ended how => cases hstep

end Steps

end Converge
