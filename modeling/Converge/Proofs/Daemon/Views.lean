import Converge.Proofs.Daemon.Following

/-!
# The view of a daemon does not go back in time

Others change the store, ask the daemon to stop or to read all rows anew, the machine becomes
anything and time goes by, all of it between any two steps of the daemon's loop. `Watch.run` is what
comes of such a sequence of turns.

* `Found`: rows that the store held, one after another;
* `InCommitOrder`: every row that the daemon's snapshot has had of a key can be traced to a moment at
  which the store held it, and these moments never go back;
* `InOrder` is the invariant: the rows that are still on their way can be traced further in the same
  manner. `InOrder.stay` and `InOrder.take` keep it;
* **`view_in_commit_order`**: the view keeps the commit order in every run in which no rows are read
  over relics. A subscription that was not broken off has none;
* `view_goes_back`: a broken subscription hands out what it still holds before it says that the store
  is lost, and the view goes back.
-/

namespace Converge

open Store (Memory Tended)

/-! ## 1. A daemon and its store, watched -/

/-- A daemon at its loop, and its store. -/
structure Watch (τ : Type) where
  loop : Loop (Site τ)
  /-- A full pass over loaded rows is over. -/
  viewed : Bool

/-- What happens next. -/
inductive Turn (τ : Type) where
  /-- Others change the store. -/
  | store (c : Store.Change)
  /-- The machine becomes something else. -/
  | machine (t : τ)
  | time (now : Duration)
  | askStop
  | askResync
  /-- The daemon takes one step, if it has not ended and need not wait. -/
  | work
deriving DecidableEq

namespace Watch

variable {τ : Type}

def store (w : Watch τ) : Memory := w.loop.store

/-- The rows as the daemon knows them, from the first load on. -/
def view (w : Watch τ) : Option Snapshot := if w.viewed then some w.loop.snapshot else none

def turn (d : Daemon (Site τ)) (w : Watch τ) : Turn τ → Watch τ
  | .store c => { w with loop.scene.host.store := w.store.undergo c }
  | .machine t => { w with loop.scene.host.machine := t }
  | .time now => { w with loop := w.loop.moveTo now }
  | .askStop => { w with loop.stopAsked := true }
  | .askResync => { w with loop.resyncAsked := true }
  | .work =>
    match w.loop.step d Site.feed with
    | some l => ⟨l, w.viewed || w.loop.stage.isLoaded⟩
    | none => w

/-- What comes of a sequence of turns, at every moment. -/
def run (d : Daemon (Site τ)) (s : Site τ) (turns : ℕ → Turn τ) : ℕ → Watch τ
  | 0 => ⟨.start d s, false⟩
  | n + 1 => (run d s turns n).turn d (turns n)

end Watch

/-- Up to a moment, every row that the view had of a key was held by the store at some moment before,
    and these moments are in order. -/
def InCommitOrder {τ : Type} (w : ℕ → Watch τ) (id : RowKey) (n : ℕ) : Prop :=
  ∃ when : ℕ → ℕ, Monotone when ∧ ∀ j ≤ n, when j ≤ j ∧
    ∀ view, (w j).view = some view → view.row? id = (w (when j)).store.row? id

/-! ## 2. Rows of the past -/

/-- The rows were held one after another, at moments from one to another. -/
def Found (held : ℕ → Option Row) (n : ℕ) : ℕ → List (Option Row) → Prop
  | _, [] => True
  | i, row :: rest => ∃ j, i ≤ j ∧ j ≤ n ∧ held j = row ∧ Found held n j rest

namespace Found

variable {held : ℕ → Option Row} {n i : ℕ} {rows : List (Option Row)}

theorem weaken {i' : ℕ} (h : Found held n i rows) (hi : i' ≤ i) : Found held n i' rows := by
  cases rows with
  | nil => trivial
  | cons row rest =>
    obtain ⟨j, hij, hjn, hrow, hrest⟩ := h
    exact ⟨j, hi.trans hij, hjn, hrow, hrest⟩

theorem extend {n' : ℕ} (hn : n ≤ n') (h : Found held n i rows) : Found held n' i rows := by
  induction rows generalizing i with
  | nil => trivial
  | cons row rest ih =>
    obtain ⟨j, hij, hjn, hrow, hrest⟩ := h
    exact ⟨j, hij, hjn.trans hn, hrow, ih hrest⟩

theorem sublist {rows' : List (Option Row)} (hs : rows'.Sublist rows) (h : Found held n i rows) :
    Found held n i rows' := by
  induction hs generalizing i with
  | slnil => trivial
  | cons row _ ih =>
    obtain ⟨j, hij, -, -, hrest⟩ := h
    exact (ih hrest).weaken hij
  | cons_cons row _ ih =>
    obtain ⟨j, hij, hjn, hrow, hrest⟩ := h
    exact ⟨j, hij, hjn, hrow, ih hrest⟩

/-- The row that is held at the end may be added, as often as one likes. -/
theorem append_replicate (hi : i ≤ n) (h : Found held n i rows) (k : ℕ) :
    Found held n i (rows ++ List.replicate k (held n)) := by
  induction rows generalizing i with
  | nil =>
    induction k generalizing i with
    | zero => trivial
    | succ k ih => exact ⟨n, hi, le_rfl, rfl, ih le_rfl trivial⟩
  | cons row rest ih =>
    obtain ⟨j, hij, hjn, hrow, hrest⟩ := h
    exact ⟨j, hij, hjn, hrow, ih hjn hrest⟩

theorem later {rows' : List (Option Row)} (hi : i ≤ n) (h : Found held n i rows)
    (hl : Later (held n) rows rows') : Found held n i rows' := by
  obtain ⟨k, hk⟩ := hl
  exact (h.append_replicate hi k).sublist hk

end Found

/-! ## 3. The invariant -/

/-- The rows of the view so far, and the rows on their way after them, are in commit order. -/
def InOrder {τ : Type} (w : ℕ → Watch τ) (id : RowKey) (n : ℕ) : Prop :=
  ∃ when : ℕ → ℕ, Monotone when ∧ (∀ j ≤ n, when j ≤ j ∧
    ∀ view, (w j).view = some view → view.row? id = (w (when j)).store.row? id) ∧
    Found (fun j => (w j).store.row? id) n (when n) ((w n).loop.upcoming id)

namespace InOrder

variable {τ : Type} {w : ℕ → Watch τ} {id : RowKey} {n : ℕ}

/-- The moments up to `n`, and one more for all that comes. -/
def andThen (when : ℕ → ℕ) (n i j : ℕ) : ℕ := if j ≤ n then when j else i

theorem monotone_andThen {when : ℕ → ℕ} (hmono : Monotone when) {i : ℕ} (hi : when n ≤ i) :
    Monotone (andThen when n i) := by
  intro a b hab
  unfold andThen
  split_ifs with ha hb
  · exact hmono hab
  · exact (hmono ha).trans hi
  · omega
  · exact le_rfl

/-- The view at one more moment. -/
theorem next {when : ℕ → ℕ} (hmono : Monotone when)
    (hviews : ∀ j ≤ n, when j ≤ j ∧
      ∀ view, (w j).view = some view → view.row? id = (w (when j)).store.row? id)
    {i : ℕ} (hi : when n ≤ i) (hin : i ≤ n + 1)
    (hview : ∀ view, (w (n + 1)).view = some view → view.row? id = (w i).store.row? id)
    (hfound : Found (fun j => (w j).store.row? id) (n + 1) i ((w (n + 1)).loop.upcoming id)) :
    InOrder w id (n + 1) := by
  refine ⟨andThen when n i, monotone_andThen hmono hi, fun j hj => ?_, ?_⟩
  · unfold andThen
    by_cases hjn : j ≤ n
    · rw [if_pos hjn]
      exact hviews j hjn
    · obtain rfl : j = n + 1 := by omega
      rw [if_neg hjn]
      exact ⟨hin, hview⟩
  · unfold andThen
    rwa [if_neg (by omega)]

/-- The view stays. -/
theorem stay (h : InOrder w id n)
    (hview : (w (n + 1)).view.map (·.row? id) = (w n).view.map (·.row? id))
    (hlater : Later ((w (n + 1)).store.row? id) ((w n).loop.upcoming id)
      ((w (n + 1)).loop.upcoming id)) : InOrder w id (n + 1) := by
  obtain ⟨when, hmono, hviews, hfound⟩ := h
  obtain ⟨hnow, hviewn⟩ := hviews n le_rfl
  refine next hmono hviews le_rfl (by omega) (fun view hv => ?_) ?_
  · rw [hv, Option.map_some] at hview
    obtain ⟨view', hv', hrow⟩ := Option.map_eq_some_iff.mp hview.symm
    rw [← hrow]
    exact hviewn view' hv'
  · exact (hfound.extend (Nat.le_succ n)).later (by omega) hlater

/-- The view takes the first of the rows that were on their way. -/
theorem take (h : InOrder w id n)
    (hlater : Later ((w (n + 1)).store.row? id) ((w n).loop.upcoming id)
      ((w (n + 1)).loop.snapshot.row? id :: (w (n + 1)).loop.upcoming id)) :
    InOrder w id (n + 1) := by
  obtain ⟨when, hmono, hviews, hfound⟩ := h
  have hnow := (hviews n le_rfl).1
  obtain ⟨i, hi, hin, hrow, hrest⟩ :=
    (hfound.extend (Nat.le_succ n)).later (by omega) hlater
  refine next hmono hviews hi hin (fun view hv => ?_) hrest
  unfold Watch.view at hv
  split_ifs at hv with hviewed
  cases hv
  exact hrow.symm

end InOrder

/-! ## 4. Every turn keeps it -/

section Turns

variable {τ : Type} {d : Daemon (Site τ)} {h : Host τ} {w : Watch τ} {id : RowKey}

/-- What a turn does with the rows on their way to the view. -/
def Proceeds (id : RowKey) (w w' : Watch τ) : Prop :=
  (w'.view.map (·.row? id) = w.view.map (·.row? id) ∧
    Later (w'.store.row? id) (w.loop.upcoming id) (w'.loop.upcoming id)) ∨
  Later (w'.store.row? id) (w.loop.upcoming id) (w'.loop.snapshot.row? id :: w'.loop.upcoming id)

/-- A change of the store adds its row at the end, if it is about the key. -/
theorem turn_store (hl : w.loop.Sound d) (c : Store.Change) :
    (w.turn d (.store c)).loop.Sound d ∧ Proceeds id w (w.turn d (.store c)) := by
  refine ⟨⟨hl.tracks, hl.read, fun sub hsub => ((hl.tended sub hsub).undergo c).1⟩,
    .inl ⟨rfl, .of_sublist_append ?_⟩⟩
  show (w.loop.stage.incoming id ++ w.loop.stage.sub?.elim [] fun sub =>
    (w.store.undergo c).told sub id).Sublist _
  unfold Loop.upcoming
  rw [List.append_assoc]
  refine List.Sublist.append_left ?_ _
  cases hsub : w.loop.stage.sub? with
  | none => exact List.nil_sublist _
  | some sub => exact ((hl.tended sub hsub).undergo c).2 id

/-- A turn that changes neither the store nor the stage nor what is known. -/
theorem proceeds_rfl {w' : Watch τ} (hview : w'.view = w.view)
    (hup : w'.loop.upcoming id = w.loop.upcoming id) : Proceeds id w w' := by
  refine .inl ⟨by rw [hview], .of_sublist ?_⟩
  rw [hup]

theorem turn_work (hhost : d.executor.host = Site.host h)
    (hsink : d.sink = none ∨ d.sink = some Site.sink) (hl : w.loop.Sound d)
    (hid : id.table ∈ d.tables) (hclean : w.loop.relics id = []) :
    (w.turn d .work).loop.Sound d ∧ Proceeds id w (w.turn d .work) := by
  unfold Watch.turn
  cases hstep : w.loop.step d Site.feed with
  | none => exact ⟨hl, proceeds_rfl rfl rfl⟩
  | some l =>
    obtain ⟨hsound, hgoes⟩ := step_goes hhost hsink hl hid hclean hstep
    refine ⟨hsound, ?_⟩
    rcases hgoes with ⟨hloaded, hrow, hlater⟩ | hlater
    · refine .inl ⟨?_, hlater⟩
      unfold Watch.view
      rw [hloaded, Bool.or_false]
      cases w.viewed with
      | false => rfl
      | true => exact congrArg some hrow
    · exact .inr hlater

/-- **One turn**: it keeps the loop sound, and the view stays or takes the next row on its way. -/
theorem turn_proceeds (hhost : d.executor.host = Site.host h)
    (hsink : d.sink = none ∨ d.sink = some Site.sink) (hl : w.loop.Sound d)
    (hid : id.table ∈ d.tables) (t : Turn τ) (hclean : t = .work → w.loop.relics id = []) :
    (w.turn d t).loop.Sound d ∧ Proceeds id w (w.turn d t) := by
  cases t with
  | store c => exact turn_store hl c
  | machine t => exact ⟨⟨hl.tracks, hl.read, hl.tended⟩, proceeds_rfl rfl rfl⟩
  | time now => exact ⟨⟨hl.tracks, hl.read, hl.tended⟩, proceeds_rfl rfl rfl⟩
  | askStop => exact ⟨⟨hl.tracks, hl.read, hl.tended⟩, proceeds_rfl rfl rfl⟩
  | askResync => exact ⟨⟨hl.tracks, hl.read, hl.tended⟩, proceeds_rfl rfl rfl⟩
  | work => exact turn_work hhost hsink hl hid (hclean rfl)

/-! ## 5. Whole runs -/

theorem tracks_tracking {t : String} : ∀ {names : List String} {tables : SortedMap String Table},
    t ∈ names ∨ tables.contains t = true →
      Snapshot.tracks ⟨names.foldl (fun m t => m.insert t .empty) tables⟩ t = true
  | [], _, ht => ht.resolve_left List.not_mem_nil
  | name :: rest, tables, ht => by
    refine @tracks_tracking t rest (tables.insert name .empty) ?_
    unfold SortedMap.contains at ht ⊢
    rw [SortedMap.get?_insert]
    by_cases hn : t = name
    · exact .inr (by rw [if_pos hn]; rfl)
    · rw [if_neg hn]
      exact ht.imp_left fun hm => (List.mem_cons.mp hm).resolve_left hn

theorem sound_start (d : Daemon (Site τ)) (s : Site τ) : (Loop.start d s).Sound d where
  tracks _ ht := tracks_tracking (.inl ht)
  read _ hs := nomatch hs
  tended _ hs := nomatch hs

variable {s : Site τ} {turns : ℕ → Turn τ}

/-- **The invariant holds at every moment of a run without relics.** -/
theorem inOrder_run (hhost : d.executor.host = Site.host h)
    (hsink : d.sink = none ∨ d.sink = some Site.sink) (hid : id.table ∈ d.tables) {n : ℕ}
    (hclean : ∀ j < n, turns j = .work → (Watch.run d s turns j).loop.relics id = []) :
    (Watch.run d s turns n).loop.Sound d ∧ InOrder (Watch.run d s turns) id n := by
  induction n with
  | zero =>
    refine ⟨sound_start d s, fun j => j, fun _ _ hab => hab, fun j hj => ⟨le_rfl, ?_⟩, trivial⟩
    obtain rfl : j = 0 := by omega
    exact nofun
  | succ n ih =>
    obtain ⟨hsound, horder⟩ := ih fun j hj => hclean j (by omega)
    obtain ⟨hsound', hturn⟩ :=
      turn_proceeds hhost hsink hsound hid (turns n) (hclean n (by omega))
    refine ⟨hsound', ?_⟩
    rcases hturn with ⟨hview, hlater⟩ | hlater
    · exact horder.stay hview hlater
    · exact horder.take hlater

/-- **The view of a daemon never goes back in time**: whatever others do to the store and whatever
    becomes of the machine, all rows that the view has had of a tracked key can be traced to moments in
    commit order, as long as no rows are read over relics. -/
theorem view_in_commit_order (hhost : d.executor.host = Site.host h)
    (hsink : d.sink = none ∨ d.sink = some Site.sink) (s : Site τ) (turns : ℕ → Turn τ)
    (hid : id.table ∈ d.tables) (n : ℕ)
    (hclean : ∀ j < n, turns j = .work → (Watch.run d s turns j).loop.relics id = []) :
    InCommitOrder (Watch.run d s turns) id n := by
  obtain ⟨-, when, hmono, hviews, -⟩ := inOrder_run (s := s) hhost hsink hid hclean
  exact ⟨when, hmono, hviews⟩

end Turns

/-! ## 6. A view that goes back -/

section Viewer

/-- A daemon that has nothing to do for its rows. -/
def viewer : Daemon (Site Unit) where
  name := "viewer"
  tables := ["FEATURE"]
  registry := ⟨.ofList [("FEATURE", { plan := fun _ _ _ => .ok [] })]⟩
  executor := ⟨Site.host Daemon.cannotStart, {}, "viewer"⟩
  sink := some Site.sink
  settings := LoopConfig.settings {}

def ntp : RowKey := ⟨"FEATURE", "ntp"⟩

def stateOf (word : String) : Store.Change := .set ntp (.ofList [("state", word)])

/-- The turns of a list, and after them the daemon alone. -/
def inTurn (turns : List (Turn Unit)) (j : ℕ) : Turn Unit := turns.getD j .work

/-- The daemon beside an empty store. -/
def viewing (turns : List (Turn Unit)) : ℕ → Watch Unit :=
  Watch.run viewer ⟨(), {}⟩ (inTurn turns)

/-- The daemon connects and makes its first full pass. -/
def connects : List (Turn Unit) := List.replicate 5 .work

/-- A row is set, the connection is lost and mended, all rows are read anew and the pending event is
    received. Then the row is changed, and the daemon connects again. -/
def mended : List (Turn Unit) :=
  connects ++ [.store (stateOf "enabled"), .store .disconnect, .store .reconnect, .askResync] ++
    List.replicate 6 .work ++ [.store (stateOf "disabled")] ++ List.replicate 8 .work

/-- What the broken subscription was to tell was still true when all rows were read. -/
theorem view_in_commit_order_mended :
    viewer.executor.host = Site.host Daemon.cannotStart ∧
    (viewer.sink = none ∨ viewer.sink = some Site.sink) ∧ ntp.table ∈ viewer.tables ∧
    (∀ j < 24, inTurn mended j = .work → (viewing mended j).loop.relics ntp = []) ∧
    (viewing mended 24).view.map (·.row? ntp) = some (some (.ofList [("state", "disabled")])) ∧
    InCommitOrder (viewing mended) ntp 24 := by
  have hclean : ∀ j < 24, inTurn mended j = .work → (viewing mended j).loop.relics ntp = [] := by
    decide +kernel
  have hid : ntp.table ∈ viewer.tables := by decide
  exact ⟨rfl, .inr rfl, hid, hclean, by decide +kernel,
    view_in_commit_order (d := viewer) rfl (.inr rfl) ⟨(), {}⟩ (inTurn mended) hid 24 hclean⟩

/-- The row is changed after the connection was mended, and only then all rows are read anew. -/
def overtakenTurns : List (Turn Unit) :=
  connects ++ [.store (stateOf "enabled"), .store .disconnect, .store .reconnect,
    .store (stateOf "disabled"), .askResync] ++ List.replicate 6 .work

/-- **The view goes back**: it has the second row at moment 13 and the first one at moment 16. -/
theorem view_goes_back :
    (viewing overtakenTurns 13).view.map (·.row? ntp) =
      some (some (.ofList [("state", "disabled")])) ∧
    (viewing overtakenTurns 16).view.map (·.row? ntp) =
      some (some (.ofList [("state", "enabled")])) ∧
    ¬ InCommitOrder (viewing overtakenTurns) ntp 16 := by
  have hlate : (viewing overtakenTurns 13).view.map (·.row? ntp) =
      some (some (.ofList [("state", "disabled")])) := by decide +kernel
  have hearly : (viewing overtakenTurns 16).view.map (·.row? ntp) =
      some (some (.ofList [("state", "enabled")])) := by decide +kernel
  -- the store holds the second row from moment 9 on, and the first one only before
  have hsecond : ∀ i < 17, (viewing overtakenTurns i).store.row? ntp =
      some (.ofList [("state", "disabled")]) → 9 ≤ i := by decide +kernel
  have hfirst : ∀ i < 17, (viewing overtakenTurns i).store.row? ntp =
      some (.ofList [("state", "enabled")]) → i < 9 := by decide +kernel
  refine ⟨hlate, hearly, fun ⟨when, hmono, hviews⟩ => ?_⟩
  obtain ⟨view, hview, hrow⟩ := Option.map_eq_some_iff.mp hlate
  obtain ⟨view', hview', hrow'⟩ := Option.map_eq_some_iff.mp hearly
  obtain ⟨hle, htrace⟩ := hviews 13 (by omega)
  obtain ⟨hle', htrace'⟩ := hviews 16 le_rfl
  have hafter := hsecond (when 13) (by omega) ((htrace view hview).symm.trans hrow)
  have hbefore := hfirst (when 16) (by omega) ((htrace' view' hview').symm.trans hrow')
  have horder : when 13 ≤ when 16 := hmono (by omega)
  omega

end Viewer

end Converge
