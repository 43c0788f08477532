import Mathlib.Data.List.Chain
import Converge.Daemon.Loop
import Converge.Proofs.Daemon.Deliveries

/-!
# The life cycle of a daemon

Whatever the store answers and whatever happens to the host, to the clock and to the daemon between
two steps of its loop, the stages of life that the daemon enters are a path of one diagram.

* `LifeState.Leads`: the arrows of the diagram;
* `Dial.Goes` is all that a step of connecting can be; `Passage` leads from one stage of the loop to
  the next, with the stages of life that are entered on the way. `step_passes`: a step of the loop
  is a passage, and it learns by a delivery only;
* `OnPath` is the invariant behind the path: the stage of the loop shows which stage of life was
  entered last;
* `Loop.undergo`, `Loop.after`: a loop among all that happens; `Loop.taken`: the full passes and the
  events that it begins meanwhile;
* `Stage.passesLeft`, `Stage.eventsLeft`, `Stage.stepsLeft`: what is left to a loop that was asked
  to stop, and `Passage.left`: a passage uses it up. `endsSoon_settle`: so the loop ends;
* **`life_cycle`**: the path, where it begins and ends, and what a daemon still does when it was
  asked to stop.
-/

namespace Converge

variable {σ : Type}

/-! ## 1. The diagram -/

/-- From one stage of life to the next. -/
inductive LifeState.Leads : LifeState → LifeState → Prop where
  /-- The store is connected, and the full pass is over. -/
  | settle : Leads .loading .steady
  | stopLoading : Leads .loading .shutdown
  | begin (id : RowKey) : Leads .steady (.reconciling id)
  | finish (id : RowKey) : Leads (.reconciling id) .steady
  /-- The store was lost. -/
  | lose : Leads .steady .loading
  | stopSteady : Leads .steady .shutdown

namespace Scene

variable (sc : Scene σ)

/-- The stages of life that were entered, in order. -/
def stages : List LifeState := sc.seen.filterMap Sight.stage?

@[simp] theorem stages_enter (life : LifeState) : (sc.enter life).stages = sc.stages ++ [life] :=
  List.filterMap_append

@[simp] theorem stages_audit (e : Audit.Entry) : (sc.audit e).stages = sc.stages :=
  List.filterMap_append.trans (List.append_nil _)

@[simp] theorem stages_accessed {α : Type} (a : StoreAccess) (r : Except Error α) (s : σ) :
    (sc.accessed a r s).stages = sc.stages :=
  List.filterMap_append.trans (List.append_nil _)

/-- Deeds are no stages of life. -/
@[simp] theorem stages_after {α : Type} (r : Ran σ α) : (sc.after r).stages = sc.stages := by
  have hdeeds : (r.deeds.map fun d => Sight.deed d sc.life sc.now).filterMap Sight.stage? = [] := by
    rw [List.filterMap_map, List.filterMap_eq_nil_iff]
    exact fun _ _ => rfl
  show (sc.seen ++ _).filterMap Sight.stage? = _
  rw [List.filterMap_append, hdeeds, List.append_nil]
  rfl

/-- A full pass does not change the stage of life. -/
@[simp] theorem stages_pass (d : Daemon σ) (snapshot : Snapshot) :
    (sc.pass d snapshot).2.stages = sc.stages := stages_after sc _

/-- The stages of life that are entered for an event: none if it means no change. -/
def stagesOn (k : Knowledge) (e : ChangeEvent) : List LifeState :=
  (Daemon.busyWith? k e).elim [] fun id => [.reconciling id, .steady]

@[simp] theorem stages_meet (d : Daemon σ) (e : ChangeEvent) :
    (sc.meet d e).2.stages = sc.stages ++ stagesOn sc.known e := by
  unfold meet stagesOn
  cases Daemon.busyWith? sc.known e with
  | none => exact (stages_after sc _).trans (List.append_nil _).symm
  | some id =>
    refine (stages_enter _ _).trans ?_
    show ((sc.enter (.reconciling id)).after _).stages ++ [.steady] = _
    rw [stages_after, stages_enter, List.append_assoc]
    rfl

end Scene

/-! ## 2. Steps of the loop -/

/-- The loop did something beside its work: it entered no stage of life and learnt nothing. -/
structure Scene.Aside (sc sc' : Scene σ) : Prop where
  stages : sc'.stages = sc.stages
  known : sc'.known = sc.known

namespace Scene.Aside

variable {sc sc' : Scene σ} {feed : Feed σ} {tables : List String}

theorem refl (sc : Scene σ) : sc.Aside sc := ⟨rfl, rfl⟩

theorem subscribe {r : Except Error Store.SubId} (h : sc.subscribe feed tables = (r, sc')) :
    sc.Aside sc' := by
  obtain rfl : (sc.subscribe feed tables).2 = sc' := congrArg Prod.snd h
  exact ⟨stages_accessed sc _ _ _, rfl⟩

theorem load {r : Except Error Snapshot} (h : sc.load feed tables = (r, sc')) : sc.Aside sc' := by
  obtain rfl : (sc.load feed tables).2 = sc' := congrArg Prod.snd h
  exact ⟨stages_accessed sc _ _ _, rfl⟩

theorem audit (h : sc.Aside sc') (e : Audit.Entry) : sc.Aside (sc'.audit e) :=
  ⟨(stages_audit sc' e).trans h.stages, h.known⟩

theorem release (h : sc.Aside sc') (feed : Feed σ) (sub : Store.SubId) :
    sc.Aside (sc'.release feed sub) := ⟨h.stages, h.known⟩

end Scene.Aside

/-- What the next step works on. -/
def Stage.delivery? : Stage → Option Delivery
  | .loaded _ snapshot | .reloaded _ _ snapshot => some (.rows snapshot)
  | .received _ _ e => some (.event e)
  | _ => none

/-- The attempts to connect ask whether to stop, except between subscription and load. -/
def Dial.asks : Dial → Bool
  | .subscribed _ _ => false
  | _ => true

/-- After a failed access the daemon pauses or gives up. -/
theorem Dial.afterFailure_cases (backoff : Backoff) (e : Error) (sc : Scene σ) :
    (∃ b moment, Dial.afterFailure backoff e sc = .next (.pausing b moment) sc) ∨
    Dial.afterFailure backoff e sc = .overflowed sc ∨
    Dial.afterFailure backoff e sc = .failed e sc := by
  unfold Dial.afterFailure
  split
  · cases backoff.next? with
    | none => exact .inr (.inl rfl)
    | some next => exact .inl ⟨next.2, sc.now + next.1, rfl⟩
  · exact .inr (.inr rfl)

/-- All that a step of connecting can be. -/
inductive Dial.Goes (stop : Bool) (sc : Scene σ) : Dial → DialStep σ → Prop where
  | stop {dial : Dial} (h : stop = true) (hasks : dial.asks = true) :
    Goes stop sc dial (.stopped sc)
  | next {dial : Dial} {sc' : Scene σ} (h : stop = false) (hasks : dial.asks = true) (dial' : Dial)
    (haside : sc.Aside sc') : Goes stop sc dial (.next dial' sc')
  /-- The load failed, and there will be another attempt. -/
  | tryAgain {b b' : Backoff} {sub : Store.SubId} {moment : Duration} {sc' : Scene σ}
    (haside : sc.Aside sc') : Goes stop sc (.subscribed b sub) (.next (.pausing b' moment) sc')
  | connect {b : Backoff} {sub : Store.SubId} {snapshot : Snapshot} {sc' : Scene σ}
    (haside : sc.Aside sc') : Goes stop sc (.subscribed b sub) (.connected sub snapshot sc')
  | fail {dial : Dial} {e : Error} {sc' : Scene σ} (h : stop = false ∨ dial.asks = false)
    (haside : sc.Aside sc') : Goes stop sc dial (.failed e sc')
  | overflow {dial : Dial} {sc' : Scene σ} (h : stop = false ∨ dial.asks = false)
    (haside : sc.Aside sc') : Goes stop sc dial (.overflowed sc')
  | wait {b : Backoff} {moment : Duration} (h : stop = false) (hearly : ¬ moment ≤ sc.now) :
    Goes stop sc (.pausing b moment) (.waits moment)

namespace Dial

theorem goes_afterFailure {stop : Bool} {sc sc' : Scene σ} {dial : Dial}
    (h : stop = false ∨ dial.asks = false) (haside : sc.Aside sc')
    (hpause : ∀ b moment, Goes stop sc dial (.next (.pausing b moment) sc')) (b : Backoff)
    (e : Error) : Goes stop sc dial (afterFailure b e sc') := by
  rcases afterFailure_cases b e sc' with ⟨b', moment, hnext⟩ | hnext | hnext
  · rw [hnext]
    exact hpause b' moment
  · rw [hnext]
    exact .overflow h haside
  · rw [hnext]
    exact .fail h haside

theorem goes_step (d : Daemon σ) (feed : Feed σ) (stop : Bool) (dial : Dial) (sc : Scene σ) :
    Goes stop sc dial (dial.step d feed stop sc) := by
  cases dial with
  | attempting b =>
    unfold Dial.step
    dsimp only
    split_ifs with hstop
    · exact .stop hstop rfl
    · have hgo := eq_false_of_ne_true hstop
      cases hs : sc.subscribe feed d.tables with
      | mk r sc' =>
        have haside : sc.Aside sc' := .subscribe hs
        cases r with
        | ok sub => exact .next hgo rfl _ haside
        | error e =>
          exact goes_afterFailure (.inl hgo) haside (fun _ _ => .next hgo rfl _ haside) b e
  | subscribed b sub =>
    unfold Dial.step
    dsimp only
    cases hs : sc.load feed d.tables with
    | mk r sc' =>
      have haside : sc.Aside sc' := .load hs
      cases r with
      | ok snapshot => exact .connect haside
      | error e =>
        have hreleased := haside.release feed sub
        exact goes_afterFailure (.inr rfl) hreleased (fun _ _ => .tryAgain hreleased) b e
  | pausing b moment =>
    unfold Dial.step
    dsimp only
    split_ifs with hstop hnow
    · exact .stop hstop rfl
    · exact .next (eq_false_of_ne_true hstop) rfl _ (.refl sc)
    · exact .wait (eq_false_of_ne_true hstop) hnow

end Dial

/-- From one stage of the loop to the next, with the stages of life that are entered on the way.
    `stop` says whether it was asked to stop. -/
inductive Passage (stop : Bool) : Stage → List LifeState → Stage → Prop where
  | begin : Passage stop .begun [] .outside
  | stopOutside (h : stop = true) : Passage stop .outside [.shutdown] (.ended .stopped)
  | connect (h : stop = false) (dial : Dial) : Passage stop .outside [.loading] (.connecting dial)
  | stopDialling {dial : Dial} (h : stop = true) (ha : dial.asks = true) :
    Passage stop (.connecting dial) [.shutdown] (.ended .stopped)
  | dial {dial : Dial} (h : stop = false) (ha : dial.asks = true) (dial' : Dial) :
    Passage stop (.connecting dial) [] (.connecting dial')
  /-- An attempt failed for good. -/
  | giveUp {dial : Dial} (h : stop = false ∨ dial.asks = false) {how : LoopEnd}
    (hhow : how ≠ .stopped) : Passage stop (.connecting dial) [] (.ended how)
  /-- The load failed, and there will be another attempt. -/
  | tryAgain {b b' : Backoff} {sub : Store.SubId} (moment : Duration) :
    Passage stop (.connecting (.subscribed b sub)) [] (.connecting (.pausing b' moment))
  | load {b : Backoff} {sub : Store.SubId} (snapshot : Snapshot) :
    Passage stop (.connecting (.subscribed b sub)) [] (.loaded sub snapshot)
  | settle {sub : Store.SubId} {snapshot : Snapshot} (due : Option Duration) :
    Passage stop (.loaded sub snapshot) [.steady] (.between sub due)
  | settleLate {sub : Store.SubId} {snapshot : Snapshot} :
    Passage stop (.loaded sub snapshot) [.steady] (.ended (.overflowed .adding))
  | stopBetween {sub : Store.SubId} {due : Option Duration} (h : stop = true) :
    Passage stop (.between sub due) [.shutdown] (.ended .stopped)
  | readAnew {sub : Store.SubId} {due : Option Duration} (h : stop = false)
    (due' : Option Duration) : Passage stop (.between sub due) [] (.reading sub due')
  | readLate {sub : Store.SubId} {due : Option Duration} (h : stop = false) :
    Passage stop (.between sub due) [] (.ended (.overflowed .adding))
  | wait {sub : Store.SubId} {due : Option Duration} (h : stop = false) :
    Passage stop (.between sub due) [] (.listening sub due)
  | read {sub : Store.SubId} {due : Option Duration} (snapshot : Snapshot) :
    Passage stop (.reading sub due) [] (.reloaded sub due snapshot)
  | readNothing {sub : Store.SubId} {due : Option Duration} :
    Passage stop (.reading sub due) [] (.listening sub due)
  | loseReading {sub : Store.SubId} {due : Option Duration} :
    Passage stop (.reading sub due) [] .outside
  | pass {sub : Store.SubId} {due : Option Duration} {snapshot : Snapshot} :
    Passage stop (.reloaded sub due snapshot) [] (.listening sub due)
  | listen {sub : Store.SubId} {due : Option Duration} (deadline : Duration) :
    Passage stop (.listening sub due) [] (.polling sub due deadline)
  | listenLate {sub : Store.SubId} {due : Option Duration} :
    Passage stop (.listening sub due) [] (.ended (.overflowed .adding))
  | hearNothing {sub : Store.SubId} {due : Option Duration} {deadline : Duration} :
    Passage stop (.polling sub due deadline) [] (.between sub due)
  | hear {sub : Store.SubId} {due : Option Duration} {deadline : Duration} (e : ChangeEvent) :
    Passage stop (.polling sub due deadline) [] (.received sub due e)
  | losePolling {sub : Store.SubId} {due : Option Duration} {deadline : Duration} :
    Passage stop (.polling sub due deadline) [] .outside
  | meet {sub : Store.SubId} {due : Option Duration} {e : ChangeEvent} (k : Knowledge) :
    Passage stop (.received sub due e) (Scene.stagesOn k e) (.between sub due)

namespace Loop

variable {d : Daemon σ} {feed : Feed σ} {l l' : Loop σ}

/-- The stages of life that were entered, in order. -/
def published (l : Loop σ) : List LifeState := l.scene.stages

/-- From one moment of a loop to the next by a step. -/
structure Passes (d : Daemon σ) (l l' : Loop σ) : Prop where
  /-- It does not forget that it was asked to stop. -/
  asked : l'.stopAsked = l.stopAsked
  passage : ∃ news, Passage l.stopAsked l.stage news l'.stage ∧
    l'.published = l.published ++ news
  /-- It learns by a delivery, and only so. -/
  known : l'.scene.known = (l.stage.delivery?.elim l.scene (l.scene.take d)).known

theorem passes_aside (hasked : l'.stopAsked = l.stopAsked) (hidle : l.stage.delivery? = none)
    (h : Passage l.stopAsked l.stage [] l'.stage) (haside : l.scene.Aside l'.scene) :
    l.Passes d l' where
  asked := hasked
  passage := ⟨[], h, haside.stages.trans (List.append_nil _).symm⟩
  known := by rw [hidle]; exact haside.known

theorem passes_stop {sc : Scene σ} (hidle : l.stage.delivery? = none)
    (h : Passage l.stopAsked l.stage [.shutdown] (.ended .stopped)) (haside : l.scene.Aside sc) :
    l.Passes d (l.stop d sc) where
  asked := rfl
  passage := by
    refine ⟨_, h, ?_⟩
    show ((sc.enter .shutdown).audit (stoppedEntry d)).stages = l.scene.stages ++ _
    rw [Scene.stages_audit, Scene.stages_enter, haside.stages]
  known := by rw [hidle]; exact haside.known

theorem passes_lose {sc : Scene σ} (hidle : l.stage.delivery? = none)
    (h : Passage l.stopAsked l.stage [] .outside) (sub : Store.SubId) (e : Error)
    (haside : l.scene.Aside sc) : l.Passes d (l.lose d feed sub e sc) :=
  passes_aside rfl hidle h ((haside.audit _).release feed sub)

theorem connecting_passes {dial : Dial} (hstage : l.stage = .connecting dial)
    (h : l.step d feed = some l') : l.Passes d l' := by
  obtain ⟨stage, sc, stop, resync⟩ := l
  obtain rfl : stage = .connecting dial := hstage
  have hgoes := dial.goes_step d feed stop sc
  unfold Loop.step at h
  dsimp only at h
  generalize dial.step d feed stop sc = r at h hgoes
  cases hgoes with
  | stop hstop hasks =>
    cases h
    exact passes_stop rfl (.stopDialling hstop hasks) (.refl sc)
  | next hgo hasks dial' haside =>
    cases h
    exact passes_aside rfl rfl (.dial hgo hasks dial') haside
  | tryAgain haside =>
    cases h
    exact passes_aside rfl rfl (.tryAgain _) haside
  | connect haside =>
    cases h
    exact passes_aside rfl rfl (.load _) haside
  | fail hgo haside | overflow hgo haside =>
    cases h
    exact passes_aside rfl rfl (.giveUp hgo nofun) haside
  | wait => cases h

theorem choose_passes {sub : Store.SubId} {due : Option Duration}
    (hstage : l.stage = .between sub due) : l.Passes d (l.choose d feed sub due) := by
  obtain ⟨stage, sc, stop, resync⟩ := l
  obtain rfl : stage = .between sub due := hstage
  unfold Loop.choose
  dsimp only
  split_ifs with hstop
  · exact passes_stop rfl (.stopBetween hstop) ((Scene.Aside.refl sc).release feed sub)
  · have hstop := eq_false_of_ne_true hstop
    cases nextReading d.settings sc.now with
    | some due' => exact passes_aside rfl rfl (.readAnew hstop due') (.refl sc)
    | none => exact passes_aside rfl rfl (.readLate hstop) ((Scene.Aside.refl sc).release feed sub)
  · exact passes_aside rfl rfl (.wait (eq_false_of_ne_true hstop)) (.refl sc)

theorem reading_passes {sub : Store.SubId} {due : Option Duration}
    (hstage : l.stage = .reading sub due) (h : l.step d feed = some l') : l.Passes d l' := by
  obtain ⟨stage, sc, stop, resync⟩ := l
  obtain rfl : stage = .reading sub due := hstage
  unfold Loop.step at h
  dsimp only at h
  cases hs : sc.load feed d.tables with
  | mk r sc' =>
    have haside : sc.Aside sc' := .load hs
    rw [hs] at h
    cases r with
    | ok snapshot =>
      cases h
      exact passes_aside rfl rfl (.read snapshot) haside
    | error e =>
      dsimp only at h
      split at h <;> cases h
      · exact passes_lose rfl .loseReading sub e haside
      · exact passes_aside rfl rfl .readNothing haside

theorem hear_passes {sub : Store.SubId} {due : Option Duration} {deadline : Duration}
    (hstage : l.stage = .polling sub due deadline)
    (h : l.hear d feed sub due deadline = some l') : l.Passes d l' := by
  obtain ⟨stage, sc, stop, resync⟩ := l
  obtain rfl : stage = .polling sub due deadline := hstage
  unfold Loop.hear at h
  split at h
  · cases h
    exact passes_aside rfl rfl .hearNothing ⟨rfl, rfl⟩
  · cases h
    exact passes_aside rfl rfl (.hear _) ⟨rfl, rfl⟩
  · dsimp only at h
    split at h <;> cases h
    · exact passes_lose rfl .losePolling sub _ ⟨rfl, rfl⟩
    · exact passes_aside rfl rfl .hearNothing ⟨rfl, rfl⟩
  · split at h <;> cases h
    exact passes_aside rfl rfl .hearNothing ⟨rfl, rfl⟩

/-- **A step of the loop is a passage.** -/
theorem step_passes (h : l.step d feed = some l') : l.Passes d l' := by
  obtain ⟨stage, sc, stop, resync⟩ := l
  cases stage with
  | begun =>
    cases h
    exact passes_aside rfl rfl .begin ((Scene.Aside.refl sc).audit _)
  | outside =>
    unfold Loop.step at h
    dsimp only at h
    split_ifs at h with hstop
    · cases h
      exact passes_stop rfl (.stopOutside hstop) (.refl sc)
    · cases h
      exact ⟨rfl, ⟨_, .connect (eq_false_of_ne_true hstop) _, sc.stages_enter .loading⟩, rfl⟩
  | connecting dial => exact connecting_passes rfl h
  | loaded sub snapshot =>
    have hstages : (((sc.pass d snapshot).2).enter .steady).stages = sc.stages ++ [.steady] := by
      rw [Scene.stages_enter, Scene.stages_pass]
    unfold Loop.step at h
    dsimp only at h
    split at h <;> cases h
    · exact ⟨rfl, ⟨_, .settle _, hstages⟩, rfl⟩
    · exact ⟨rfl, ⟨_, .settleLate, hstages⟩, rfl⟩
  | between sub due =>
    obtain rfl := Option.some.inj h
    exact choose_passes rfl
  | reading sub due => exact reading_passes rfl h
  | reloaded sub due snapshot =>
    cases h
    exact ⟨rfl, ⟨[], .pass, (sc.stages_pass d snapshot).trans (List.append_nil _).symm⟩, rfl⟩
  | listening sub due =>
    unfold Loop.step at h
    dsimp only at h
    split at h <;> cases h
    · exact passes_aside rfl rfl (.listen _) (.refl sc)
    · exact passes_aside rfl rfl .listenLate ((Scene.Aside.refl sc).release feed sub)
  | polling sub due deadline => exact hear_passes rfl h
  | received sub due e =>
    cases h
    exact ⟨rfl, ⟨_, .meet sc.known, sc.stages_meet d e⟩, rfl⟩
  | ended how => cases h

/-- The loop is at rest between two attempts to connect, or waits for an event. -/
inductive Waits (l : Loop σ) : Prop where
  | pausing {b : Backoff} {moment : Duration} (h : l.stage = .connecting (.pausing b moment))
    (hstop : l.stopAsked = false) (hearly : ¬ moment ≤ l.scene.now)
  | polling {sub : Store.SubId} {due : Option Duration} {deadline : Duration}
    (h : l.stage = .polling sub due deadline) (hearly : ¬ deadline ≤ l.scene.now)

/-- **A loop that does not go on has ended or waits for a moment to come.** -/
theorem ended_or_waits (h : l.step d feed = none) : (∃ how, l.stage = .ended how) ∨ l.Waits := by
  obtain ⟨stage, sc, stop, resync⟩ := l
  cases stage with
  | ended how => exact .inl ⟨how, rfl⟩
  | connecting dial =>
    unfold Loop.step at h
    dsimp only at h
    have hgoes := dial.goes_step d feed stop sc
    generalize dial.step d feed stop sc = r at h hgoes
    cases hgoes with
    | wait hgo hearly => exact .inr (.pausing rfl hgo hearly)
    | stop | next | tryAgain | connect | fail | overflow => cases h
  | polling sub due deadline =>
    unfold Loop.step Loop.hear at h
    dsimp only at h
    split at h
    · cases h
    · cases h
    · split at h <;> cases h
    · split at h
      · cases h
      · next hearly => exact .inr (.polling rfl hearly)
  | outside =>
    unfold Loop.step at h
    dsimp only at h
    split_ifs at h
  | loaded sub snapshot =>
    unfold Loop.step at h
    dsimp only at h
    split at h <;> cases h
  | reading sub due =>
    unfold Loop.step at h
    dsimp only at h
    split at h
    · cases h
    · split at h <;> cases h
  | listening sub due =>
    unfold Loop.step at h
    dsimp only at h
    split at h <;> cases h
  | begun | between _ _ | reloaded _ _ _ | received _ _ _ => cases h

end Loop

/-! ## 3. The path -/

/-- What the stage of the loop tells about the last stage of life that was entered. -/
def Stage.Shows : Stage → Option LifeState → Prop
  | .begun, last => last = none
  | .outside, last => last = none ∨ last = some .steady
  | .connecting _, last | .loaded _ _, last => last = some .loading
  | .ended how, last => how = .stopped ↔ last = some .shutdown
  | _, last => last = some .steady

/-- The stages of life are a path of the diagram, and the stage of the loop shows where it ends. -/
structure OnPath (s : Stage) (path : List LifeState) : Prop where
  leads : path.IsChain LifeState.Leads
  shows : s.Shows path.getLast?

namespace OnPath

variable {s s' : Stage} {path : List LifeState}

theorem stay (h : OnPath s path) (hshows : s'.Shows path.getLast?) : OnPath s' (path ++ []) := by
  rw [List.append_nil]
  exact ⟨h.leads, hshows⟩

theorem leads_concat (h : path.IsChain LifeState.Leads) {last next : LifeState}
    (hlast : path.getLast? = some last) (hleads : last.Leads next) :
    (path ++ [next]).IsChain LifeState.Leads := by
  refine List.isChain_append.mpr ⟨h, List.isChain_singleton _, fun x hx y hy => ?_⟩
  obtain rfl := Option.some.inj (hlast.symm.trans hx)
  obtain rfl := Option.some.inj hy
  exact hleads

/-- The path goes on by one arrow. -/
theorem go (h : OnPath s path) {last next : LifeState} (hlast : path.getLast? = some last)
    (hleads : last.Leads next) (hshows : s'.Shows (some next)) : OnPath s' (path ++ [next]) where
  leads := leads_concat h.leads hlast hleads
  shows := by
    rw [List.getLast?_concat]
    exact hshows

/-- A loop that was not asked to stop does not end at `shutdown`. -/
theorem giveUp (h : OnPath s path) {last : LifeState} (hlast : path.getLast? = some last)
    (hne : last ≠ .shutdown) {how : LoopEnd} (hhow : how ≠ .stopped) :
    OnPath (.ended how) (path ++ []) :=
  h.stay ⟨fun hstopped => absurd hstopped hhow,
    fun hshutdown => absurd (Option.some.inj (hlast.symm.trans hshutdown)) hne⟩

/-- Before connecting the path is empty or ends at `steady`. -/
theorem goOutside (h : OnPath .outside path) {next : LifeState}
    (hleads : LifeState.Leads .steady next) (hshows : s'.Shows (some next)) :
    OnPath s' (path ++ [next]) := by
  rcases h.shows with hnone | hsteady
  · obtain rfl := List.getLast?_eq_none_iff.mp hnone
    exact ⟨List.isChain_singleton next, hshows⟩
  · exact h.go hsteady hleads hshows

/-- **A passage goes on along the path.** -/
theorem passage {stop : Bool} {news : List LifeState} (h : OnPath s path)
    (hp : Passage stop s news s') : OnPath s' (path ++ news) := by
  have hshows := h.shows
  cases hp with
  | begin => exact h.stay (.inl hshows)
  | stopOutside => exact h.goOutside .stopSteady ⟨fun _ => rfl, fun _ => rfl⟩
  | connect => exact h.goOutside .lose rfl
  | stopDialling => exact h.go hshows .stopLoading ⟨fun _ => rfl, fun _ => rfl⟩
  | giveUp _ hhow => exact h.giveUp hshows nofun hhow
  | settle => exact h.go hshows .settle rfl
  | settleLate => exact h.go hshows .settle ⟨nofun, nofun⟩
  | stopBetween => exact h.go hshows .stopSteady ⟨fun _ => rfl, fun _ => rfl⟩
  | loseReading | losePolling => exact h.stay (.inr hshows)
  | readLate | listenLate => exact h.giveUp hshows nofun nofun
  | meet k =>
    unfold Scene.stagesOn
    cases Daemon.busyWith? k _ with
    | none => exact h.stay hshows
    | some id =>
      have hbusy := leads_concat h.leads hshows (.begin id)
      have hdone := leads_concat hbusy List.getLast?_concat (.finish id)
      rw [List.append_assoc] at hdone
      exact ⟨hdone, List.getLast?_append_of_ne_nil path (by simp)⟩
  | _ => exact h.stay hshows

end OnPath

/-! ## 4. Among all that happens -/

/-- What may happen next to a loop. -/
inductive Happening (σ : Type) where
  /-- The host, with the store in it, and the clock become anything. -/
  | around (host : σ) (now : Duration)
  | askStop
  | askResync
  /-- The loop takes a step if it can. -/
  | work

/-- A delivery of rows, for a full pass. -/
def Delivery.isRows : Delivery → Bool
  | .rows _ => true
  | .event _ => false

namespace Loop

variable (d : Daemon σ) (feed : Feed σ)

def undergo (l : Loop σ) : Happening σ → Loop σ
  | .around host now => { l with scene := { l.scene with host, now } }
  | .askStop => { l with stopAsked := true }
  | .askResync => { l with resyncAsked := true }
  | .work => (l.step d feed).getD l

/-- The loop when all this has happened, in order. -/
def after (l : Loop σ) (hs : List (Happening σ)) : Loop σ := hs.foldl (undergo d feed) l

/-- What a loop begins to work on. -/
def takes (l : Loop σ) : Happening σ → Option Delivery
  | .work => l.stage.delivery?
  | _ => none

/-- The full passes and the events that are begun while all this happens. -/
def taken : Loop σ → List (Happening σ) → List Delivery
  | _, [] => []
  | l, x :: rest => (l.takes x).toList ++ taken (l.undergo d feed x) rest

/-- The beginning of a run: of any daemon anywhere, who may have been asked before. -/
def begin (sc : Scene σ) (stop resync : Bool) : Loop σ :=
  ⟨.begun, { sc with seen := [] }, stop, resync⟩

variable {d : Daemon σ} {feed : Feed σ} {l : Loop σ}

/-- The loop stays where it is. -/
structure Stays (l l' : Loop σ) : Prop where
  stage : l'.stage = l.stage
  aside : l.scene.Aside l'.scene
  asked : l.stopAsked = true → l'.stopAsked = true

theorem delivery?_of_step_eq_none (h : l.step d feed = none) : l.stage.delivery? = none := by
  rcases ended_or_waits h with ⟨how, hstage⟩ | hstage | hstage
  · rw [hstage]; rfl
  · rw [hstage]; rfl
  · rw [hstage]; rfl

/-- Whatever happens, the loop takes a step or stays where it is. -/
theorem undergo_cases (d : Daemon σ) (feed : Feed σ) (l : Loop σ) (x : Happening σ) :
    (x = .work ∧ l.Passes d (l.undergo d feed x)) ∨
    (l.takes x = none ∧ l.Stays (l.undergo d feed x)) := by
  cases x with
  | around host now => exact .inr ⟨rfl, rfl, ⟨rfl, rfl⟩, id⟩
  | askStop => exact .inr ⟨rfl, rfl, .refl _, fun _ => rfl⟩
  | askResync => exact .inr ⟨rfl, rfl, .refl _, id⟩
  | work =>
    unfold undergo
    cases hs : l.step d feed with
    | none => exact .inr ⟨delivery?_of_step_eq_none hs, rfl, .refl _, id⟩
    | some l' => exact .inl ⟨rfl, step_passes hs⟩

theorem after_append (first later : List (Happening σ)) :
    l.after d feed (first ++ later) = (l.after d feed first).after d feed later :=
  List.foldl_append

/-- The path goes on, whatever happens. -/
theorem onPath_undergo (h : OnPath l.stage l.published) (x : Happening σ) :
    OnPath (l.undergo d feed x).stage (l.undergo d feed x).published := by
  rcases undergo_cases d feed l x with ⟨-, hpasses⟩ | ⟨-, hstays⟩
  · obtain ⟨news, hp, hpublished⟩ := hpasses.passage
    rw [hpublished]
    exact h.passage hp
  · rw [hstays.stage, show (l.undergo d feed x).published = l.published from hstays.aside.stages]
    exact h

theorem onPath_after (d : Daemon σ) (feed : Feed σ) : ∀ {l : Loop σ} (hs : List (Happening σ)),
    OnPath l.stage l.published → OnPath (l.after d feed hs).stage (l.after d feed hs).published
  | _, [], h => h
  | _, x :: rest, h => onPath_after d feed rest (onPath_undergo h x)

theorem onPath_begin (sc : Scene σ) (stop resync : Bool) :
    OnPath (begin sc stop resync).stage (begin sc stop resync).published := ⟨.nil, rfl⟩

/-! ## 5. What is taken -/

theorem takes_undergo (feed : Feed σ) {begun : Scene σ} {past : List Delivery}
    (h : Takes d begun past l.scene) (x : Happening σ) :
    Takes d begun (past ++ (l.takes x).toList) (l.undergo d feed x).scene := by
  rcases undergo_cases d feed l x with ⟨rfl, hpasses⟩ | ⟨hidle, hstays⟩
  · show Takes d begun (past ++ l.stage.delivery?.toList) _
    have hknown := hpasses.known
    cases hd : l.stage.delivery? with
    | none =>
      rw [hd] at hknown
      rw [Option.toList_none, List.append_nil]
      exact .meanwhile h _ hknown
    | some delivery =>
      rw [hd] at hknown
      exact .meanwhile (h.take delivery) _ hknown
  · rw [hidle, Option.toList_none, List.append_nil]
    exact .meanwhile h _ hstays.aside.known

/-- **A loop learns by the full passes and events that it began**, and by nothing else. -/
theorem takes_taken {begun : Scene σ} : ∀ {past : List Delivery} {l : Loop σ}
    (hs : List (Happening σ)), Takes d begun past l.scene →
      Takes d begun (past ++ l.taken d feed hs) (l.after d feed hs).scene
  | past, l, [], h => by
    rw [taken, List.append_nil]
    exact h
  | past, l, x :: rest, h => by
    have hrest := takes_taken rest (takes_undergo feed h x)
    rw [List.append_assoc] at hrest
    exact hrest

end Loop

/-- The full passes that a loop begins at most from here when it was asked to stop. -/
def Stage.passesLeft : Stage → Nat
  | .connecting dial => if dial.asks then 0 else 1
  | .loaded _ _ | .reading _ _ | .reloaded _ _ _ => 1
  | _ => 0

/-- The events that a loop begins at most from here when it was asked to stop. -/
def Stage.eventsLeft : Stage → Nat
  | .reading _ _ | .reloaded _ _ _ | .listening _ _ | .polling _ _ _ | .received _ _ _ => 1
  | _ => 0

/-- The steps that bring a loop to its end when it was asked to stop. -/
def Stage.stepsLeft : Stage → Nat
  | .begun => 2
  | .outside | .between _ _ => 1
  | .connecting dial => if dial.asks then 1 else 3
  | .loaded _ _ => 2
  | .reading _ _ => 6
  | .reloaded _ _ _ => 5
  | .listening _ _ => 4
  | .polling _ _ _ => 3
  | .received _ _ _ => 2
  | .ended _ => 0

theorem Stage.left_le_one (s : Stage) : s.passesLeft ≤ 1 ∧ s.eventsLeft ≤ 1 := by
  unfold passesLeft eventsLeft
  constructor <;> (repeat' split) <;> decide

theorem Stage.stepsLeft_le (s : Stage) : s.stepsLeft ≤ 6 := by
  unfold stepsLeft
  repeat' split
  all_goals decide

/-- **A loop that was asked to stop uses up what is left to it.** -/
theorem Passage.left {s s' : Stage} {news : List LifeState} (h : Passage true s news s') :
    s.delivery?.toList.countP Delivery.isRows + s'.passesLeft ≤ s.passesLeft ∧
    s.delivery?.toList.countP (!·.isRows) + s'.eventsLeft ≤ s.eventsLeft ∧
    s'.stepsLeft < s.stepsLeft := by
  cases h with
  | connect h | dial h | readAnew h | readLate h | wait h => cases h
  | stopDialling _ hasks =>
    simp [Stage.delivery?, Stage.passesLeft, Stage.eventsLeft, Stage.stepsLeft, hasks]
  | giveUp hasks =>
    have hasks := hasks.resolve_left nofun
    simp [Stage.delivery?, Stage.passesLeft, Stage.eventsLeft, Stage.stepsLeft, hasks]
  | _ =>
    simp [Stage.delivery?, Stage.passesLeft, Stage.eventsLeft, Stage.stepsLeft, Dial.asks,
      Delivery.isRows]

namespace Loop

variable {d : Daemon σ} {feed : Feed σ}

/-- **At most one full pass and one event are begun when it was asked to stop.** -/
theorem countP_taken : ∀ (hs : List (Happening σ)) {l : Loop σ}, l.stopAsked = true →
    (l.taken d feed hs).countP Delivery.isRows ≤ l.stage.passesLeft ∧
    (l.taken d feed hs).countP (!·.isRows) ≤ l.stage.eventsLeft
  | [], _, _ => ⟨Nat.zero_le _, Nat.zero_le _⟩
  | x :: rest, l, hstop => by
    rw [taken, List.countP_append, List.countP_append]
    rcases undergo_cases d feed l x with ⟨rfl, hpasses⟩ | ⟨hidle, hstays⟩
    · obtain ⟨news, hp, -⟩ := hpasses.passage
      rw [hstop] at hp
      obtain ⟨hrows, hevents, -⟩ := hp.left
      have ih := countP_taken rest (hpasses.asked.trans hstop)
      exact ⟨(Nat.add_le_add_left ih.1 _).trans hrows, (Nat.add_le_add_left ih.2 _).trans hevents⟩
    · have ih := countP_taken rest (hstays.asked hstop)
      rw [hstays.stage] at ih
      rw [hidle, Option.toList_none, List.countP_nil, List.countP_nil, Nat.zero_add, Nat.zero_add]
      exact ih

end Loop

/-! ## 6. The life cycle -/

/-- The first stage of life tells whether the loop was asked to stop. -/
theorem Passage.first {stop : Bool} {s s' : Stage} {news : List LifeState}
    (h : Passage stop s news s') (hshows : s.Shows none) {x : LifeState}
    (hx : news.head? = some x) : x = if stop then .shutdown else .loading := by
  cases h with
  | stopOutside hstop => rw [hstop]; exact (Option.some.inj hx).symm
  | connect hstop => rw [hstop]; exact (Option.some.inj hx).symm
  | stopDialling | settle | settleLate | stopBetween | meet => cases hshows
  | _ => cases hx

namespace Loop

variable {d : Daemon σ} {feed : Feed σ}

/-- The beginning of the path stays. -/
theorem head?_undergo {l : Loop σ} {y : LifeState} (hy : l.published.head? = some y)
    (x : Happening σ) : (l.undergo d feed x).published.head? = some y := by
  rcases undergo_cases d feed l x with ⟨-, hpasses⟩ | ⟨-, hstays⟩
  · obtain ⟨news, -, hpublished⟩ := hpasses.passage
    rw [hpublished, List.head?_append, hy]
    rfl
  · exact (congrArg List.head? hstays.aside.stages).trans hy

/-- The first stage of life was entered by a step, and tells whether the loop was asked to stop
    before. -/
theorem first_published {l : Loop σ} (hbegun : OnPath l.stage l.published)
    (hnone : l.published = []) {x : LifeState} (hs : List (Happening σ))
    (hx : (l.after d feed hs).published.head? = some x) :
    ∃ before later, hs = before ++ .work :: later ∧ (l.after d feed before).published = [] ∧
      x = if (l.after d feed before).stopAsked then .shutdown else .loading := by
  induction hs using List.reverseRecOn with
  | nil =>
    have hx : l.published.head? = some x := hx
    rw [hnone] at hx
    cases hx
  | append_singleton hs last ih =>
    rw [after_append] at hx
    have hx : ((l.after d feed hs).undergo d feed last).published.head? = some x := hx
    cases hhead : (l.after d feed hs).published.head? with
    | some y =>
      obtain ⟨before, later, rfl, hbefore, hy⟩ := ih (hhead.trans
        ((head?_undergo hhead last).symm.trans hx))
      exact ⟨before, later ++ [last], by simp, hbefore, hy⟩
    | none =>
      have hempty := List.head?_eq_none_iff.mp hhead
      have hshows := (onPath_after d feed hs hbegun).shows
      rw [hempty] at hshows
      rcases undergo_cases d feed (l.after d feed hs) last with ⟨rfl, hpasses⟩ | ⟨-, hstays⟩
      · obtain ⟨news, hp, hpublished⟩ := hpasses.passage
        rw [hpublished, hempty] at hx
        exact ⟨hs, [], rfl, hempty, hp.first hshows hx⟩
      · rw [show Loop.published _ = _ from hstays.aside.stages] at hx
        rw [show (l.after d feed hs).scene.stages = [] from hempty] at hx
        cases hx

end Loop

/-- `shutdown` is the last stage of life when the run has ended as asked, and then only. -/
theorem Stage.Shows.stopped_iff {s : Stage} {last : Option LifeState} (h : s.Shows last) :
    s = .ended .stopped ↔ last = some .shutdown := by
  cases s with
  | ended how => exact (by simp : Stage.ended how = .ended .stopped ↔ how = .stopped).trans h
  | outside =>
    rcases h with rfl | rfl
    · exact ⟨nofun, nofun⟩
    · exact ⟨nofun, nofun⟩
  | _ =>
    have h : last = _ := h
    subst h
    exact ⟨nofun, nofun⟩

namespace Loop

/-- The loop has ended, or it waits for an event until a moment that is set. -/
def EndsSoon (l : Loop σ) : Prop :=
  (∃ how, l.stage = .ended how) ∨
  ∃ sub due deadline, l.stage = .polling sub due deadline ∧ ¬ deadline ≤ l.scene.now

/-- A loop that was asked to stop has ended when no steps are left, unless it waits for an event. -/
theorem endsSoon_settle {d : Daemon σ} {feed : Feed σ} : ∀ (fuel : Nat) {l : Loop σ},
    l.stopAsked = true → l.stage.stepsLeft ≤ fuel → (l.settle d feed fuel).EndsSoon
  | fuel, l, hstop, hfuel => by
    cases hs : l.step d feed with
    | none =>
      have hsettle : l.settle d feed fuel = l := by
        cases fuel with
        | zero => rfl
        | succ fuel => simp only [Loop.settle, hs]
      rw [hsettle]
      rcases ended_or_waits hs with hended | ⟨-, hgo, -⟩ | ⟨hpolling, hearly⟩
      · exact .inl hended
      · rw [hstop] at hgo
        cases hgo
      · exact .inr ⟨_, _, _, hpolling, hearly⟩
    | some l' =>
      have hpasses := step_passes hs
      obtain ⟨news, hp, -⟩ := hpasses.passage
      rw [hstop] at hp
      have hless := hp.left.2.2.trans_le hfuel
      cases fuel with
      | zero => cases hless
      | succ fuel =>
        have hsettle : l.settle d feed (fuel + 1) = l'.settle d feed fuel := by
          simp only [Loop.settle, hs]
        rw [hsettle]
        exact endsSoon_settle fuel (hpasses.asked.trans hstop) (Nat.lt_succ_iff.mp hless)

end Loop

/-- All that is said about the life of a daemon whose run began as `l` when `hs` has happened. -/
structure LifeCycle (d : Daemon σ) (feed : Feed σ) (l : Loop σ) (hs : List (Happening σ)) :
    Prop where
  /-- The stages of life are a path of the diagram. -/
  path : (l.after d feed hs).published.IsChain LifeState.Leads
  /-- The last one shows where the loop is. -/
  shows : (l.after d feed hs).stage.Shows (l.after d feed hs).published.getLast?
  /-- The first one is entered by a step: `shutdown` if it was asked to stop before, and else
      `loading`. -/
  first : ∀ x, (l.after d feed hs).published.head? = some x →
    ∃ before later, hs = before ++ .work :: later ∧ (l.after d feed before).published = [] ∧
      x = if (l.after d feed before).stopAsked then .shutdown else .loading
  /-- `shutdown` is the last one when the run has ended as asked, and then only. -/
  last : (l.after d feed hs).stage = .ended .stopped ↔
    (l.after d feed hs).published.getLast? = some .shutdown
  /-- `taken` are the full passes and the events that were worked on. -/
  worked : Takes d l.scene (l.taken d feed hs) (l.after d feed hs).scene
  /-- When it was asked to stop, at most one further full pass is begun, whatever happens, -/
  one_pass : (l.after d feed hs).stopAsked = true → ∀ later,
    ((l.after d feed hs).taken d feed later).countP Delivery.isRows ≤ 1
  /-- and at most one further event, -/
  one_event : (l.after d feed hs).stopAsked = true → ∀ later,
    ((l.after d feed hs).taken d feed later).countP (!·.isRows) ≤ 1
  /-- and after six steps the run has ended or waits for an event, until a moment that is set. -/
  ends : (l.after d feed hs).stopAsked = true → ((l.after d feed hs).settle d feed 6).EndsSoon

/-- **The life cycle of a daemon**, whatever the store answers and whoever asks it for what. -/
theorem life_cycle (d : Daemon σ) (feed : Feed σ) (sc : Scene σ) (stop resync : Bool)
    (hs : List (Happening σ)) : LifeCycle d feed (.begin sc stop resync) hs := by
  have hbegun := Loop.onPath_begin sc stop resync
  have honPath := Loop.onPath_after d feed hs hbegun
  have hleft := ((Loop.begin sc stop resync).after d feed hs).stage.left_le_one
  exact {
    path := honPath.leads
    shows := honPath.shows
    first := fun _ hx => Loop.first_published hbegun rfl hs hx
    last := honPath.shows.stopped_iff
    worked := Loop.takes_taken hs .begin
    one_pass := fun hstop later => (Loop.countP_taken later hstop).1.trans hleft.1
    one_event := fun hstop later => (Loop.countP_taken later hstop).2.trans hleft.2
    ends := fun hstop => Loop.endsSoon_settle 6 hstop (Stage.stepsLeft_le _) }

end Converge
