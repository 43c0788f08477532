import Converge.Proofs.Executor.Strokes

/-!
# Hosts that work cannot tell apart

Two runs of the same work, from two hosts that are related in some way. If no access to the host can
tell related hosts apart, then no work can.

* `Ran.Alike` says that two pieces of work have come to the same value, have done the same, and have
  left related hosts; `Respects` that a piece of work does so from related hosts;
* `respects_runActions`, `respects_executeBatch`: chains and batches;
* `follow_alike`: a batch under way, its lanes moving in the same order;
* **`batchBy_cases`**: so a batch can be run in the same orders, and comes to the same in each of them.
-/

namespace Converge

variable {σ α β : Type}

/-! ## 1. Two runs -/

/-- Two pieces of work come to the same value and do the same, and their hosts are related. -/
structure Ran.Alike (Rel : σ → σ → Prop) (x y : Ran σ α) : Prop where
  value : x.value = y.value
  deeds : x.deeds = y.deeds
  host : Rel x.host y.host

/-- From related hosts the work comes to the same. -/
def Respects (Rel : σ → σ → Prop) (f : σ → Ran σ α) : Prop :=
  ∀ s s', Rel s s' → (f s).Alike Rel (f s')

/-- No access to the host tells related hosts apart. -/
structure Host.Respects (h : Host σ) (Rel : σ → σ → Prop) : Prop where
  run : ∀ c s s', Rel s s' → (h.run c s).1 = (h.run c s').1 ∧ Rel (h.run c s).2 (h.run c s').2
  writeFile : ∀ path content s s', Rel s s' →
    (h.writeFile path content s).1 = (h.writeFile path content s').1 ∧
      Rel (h.writeFile path content s).2 (h.writeFile path content s').2
  removeFile : ∀ path s s', Rel s s' →
    (h.removeFile path s).1 = (h.removeFile path s').1 ∧
      Rel (h.removeFile path s).2 (h.removeFile path s').2

variable {Rel : σ → σ → Prop}

/-- Neither does it the other way round. -/
theorem Host.Respects.swap {h : Host σ} (hh : h.Respects Rel) : h.Respects (Function.swap Rel) where
  run c s s' hs := ⟨(hh.run c s' s hs).1.symm, (hh.run c s' s hs).2⟩
  writeFile path content s s' hs :=
    ⟨(hh.writeFile path content s' s hs).1.symm, (hh.writeFile path content s' s hs).2⟩
  removeFile path s s' hs :=
    ⟨(hh.removeFile path s' s hs).1.symm, (hh.removeFile path s' s hs).2⟩

theorem Ran.Alike.andThen {x y : Ran σ α} (h : x.Alike Rel y) {g : α → σ → Ran σ β}
    (hg : ∀ a, Respects Rel (g a)) : (x.andThen g).Alike Rel (y.andThen g) := by
  have hnext := hg x.value _ _ h.host
  rw [h.value] at hnext
  refine ⟨?_, ?_, ?_⟩
  · show (g x.value x.host).value = (g y.value y.host).value
    rw [h.value]
    exact hnext.value
  · show x.deeds ++ (g x.value x.host).deeds = y.deeds ++ (g y.value y.host).deeds
    rw [h.value, h.deeds, hnext.deeds]
  · show Rel (g x.value x.host).host (g y.value y.host).host
    rw [h.value]
    exact hnext.host

namespace Respects

theorem idle (a : α) : Respects Rel (Ran.idle a) := fun _ _ h => ⟨rfl, rfl, h⟩

theorem andThen {f : σ → Ran σ α} {g : α → σ → Ran σ β} (hf : Respects Rel f)
    (hg : ∀ a, Respects Rel (g a)) : Respects Rel fun s => (f s).andThen g :=
  fun s s' h => (hf s s' h).andThen hg

end Respects

/-! ## 2. Chains and batches -/

namespace Executor

variable {ex : Executor σ}

theorem respects_apply (h : ex.host.Respects Rel) (a : Action) : Respects Rel (ex.apply a) := by
  intro s s' hs
  have hcommand : ∀ c : CommandSpec,
      Ran.Alike Rel (⟨outcomeOfExec (ex.host.run c s).1, (ex.host.run c s).2, [.call c]⟩ : Ran σ _)
        ⟨outcomeOfExec (ex.host.run c s').1, (ex.host.run c s').2, [.call c]⟩ := by
    intro c
    obtain ⟨hanswer, hrel⟩ := h.run c s s' hs
    exact ⟨congrArg outcomeOfExec hanswer, rfl, hrel⟩
  cases a with
  | service unit verb => exact hcommand _
  | rule change spec => exact hcommand _
  | managerReload => exact hcommand _
  | writeFile path content =>
    obtain ⟨hanswer, hrel⟩ := h.writeFile path content s s' hs
    exact ⟨congrArg (outcomeOfFile path) hanswer, rfl, hrel⟩
  | removeFile path =>
    obtain ⟨hanswer, hrel⟩ := h.removeFile path s s' hs
    exact ⟨congrArg (fun r => outcomeOfFile path (forgiveMissing r)) hanswer, rfl, hrel⟩

theorem respects_act (h : ex.host.Respects Rel) (correlation : Option String)
    (spoiled : List String) (a : Action) : Respects Rel (ex.act correlation spoiled a) := by
  intro s s' hs
  have happly := respects_apply h a s s' hs
  rcases ex.act_cases correlation spoiled a s with ⟨hr, he⟩ | ⟨hr, he⟩ <;>
    rcases ex.act_cases correlation spoiled a s' with ⟨hr', he'⟩ | ⟨hr', he'⟩
  · rw [he, he']
    exact ⟨rfl, rfl, hs⟩
  · exact absurd hr hr'
  · exact absurd hr' hr
  · rw [he, he', happly.value]
    exact ⟨rfl, rfl, happly.host⟩

theorem respects_runActions (h : ex.host.Respects Rel) (correlation : Option String) :
    ∀ (spoiled : List String) (actions : List Action),
      Respects Rel (ex.runActions correlation spoiled actions)
  | _, [] => .idle _
  | spoiled, a :: rest =>
    (respects_act h correlation spoiled a).andThen fun _ =>
      (respects_runActions h correlation _ rest).andThen fun _ => .idle _

theorem respects_runNumbered (h : ex.host.Respects Rel) :
    ∀ chains : List (Nat × PlannedDelta), Respects Rel (ex.runNumbered chains)
  | [] => .idle _
  | (_, p) :: rest =>
    ((respects_runActions h _ [] p.actions).andThen fun _ => .idle _).andThen fun _ =>
      (respects_runNumbered h rest).andThen fun _ => .idle _

theorem respects_runPlaces (h : ex.host.Respects Rel) (planned : List PlannedDelta)
    (places : List Nat) : Respects Rel (ex.runPlaces planned places) := by
  intro s s' hs
  rw [runPlaces_eq, runPlaces_eq]
  exact respects_runNumbered h _ s s' hs

/-- **A batch comes to the same from related hosts.** -/
theorem respects_executeBatch (h : ex.host.Respects Rel) (planned : List PlannedDelta) :
    Respects Rel (ex.executeBatch planned) :=
  (respects_runPlaces h planned (schedule planned)).andThen fun _ => .idle _

/-! ## 3. Lanes -/

/-- Two batches under way are at the same point, on related hosts. -/
structure Flight.Alike (Rel : σ → σ → Prop) (fl fl' : Flight σ) : Prop where
  lanes : fl.lanes = fl'.lanes
  deeds : fl.deeds = fl'.deeds
  host : Rel fl.host fl'.host

/-- A lane takes the same step on related hosts. -/
theorem Lane.step_alike (h : ex.host.Respects Rel) {l : Lane} {s s' : σ} (hs : Rel s s')
    {r : Ran σ Lane} (hr : l.step ex s = some r) :
    ∃ r', l.step ex s' = some r' ∧ r.Alike Rel r' := by
  rcases Lane.step_cases hr with ⟨i, p, rest, finished, rfl, rfl⟩ |
    ⟨place, id, spoiled, reports, waiting, finished, rfl, rfl⟩ |
    ⟨place, id, spoiled, a, rest, reports, waiting, finished, rfl, rfl⟩
  · exact ⟨_, rfl, ⟨rfl, rfl, hs⟩⟩
  · exact ⟨_, rfl, ⟨rfl, rfl, hs⟩⟩
  · exact ⟨_, rfl, (respects_act h _ spoiled a s s' hs).andThen fun _ => .idle _⟩

/-- So its stroke is the same. -/
theorem Lane.stroke?_alike (h : ex.host.Respects Rel) (l : Lane) {s s' : σ} (hs : Rel s s') :
    l.stroke? ex s = l.stroke? ex s' := by
  obtain ⟨running, waiting, finished⟩ := l
  cases running with
  | none => rfl
  | some c =>
    obtain ⟨place, id, spoiled, todo, reports⟩ := c
    cases todo with
    | nil => rfl
    | cons a rest =>
      have hvalue := (respects_act h (some id.full) spoiled a s s' hs).value
      exact congrArg (fun o => some (Stroke.mk id ⟨a, o⟩)) hvalue

theorem Flight.step_alike (h : ex.host.Respects Rel) {fl fl' next : Flight σ} {i : Nat}
    (hfl : fl.Alike Rel fl') (hstep : fl.step ex i = some next) :
    ∃ next', fl'.step ex i = some next' ∧ next.Alike Rel next' := by
  obtain ⟨lanes, host, deeds⟩ := fl
  obtain ⟨lanes', host', deeds'⟩ := fl'
  obtain ⟨rfl, rfl, hhost⟩ := hfl
  obtain ⟨l, r, hl, hr, rfl⟩ := Flight.step_eq_some hstep
  obtain ⟨r', hr', hsame⟩ := Lane.step_alike h hhost hr
  -- the permits are the same on both sides, since the lanes are
  have hpermit : ¬ (l.isFresh && decide (permits ex ≤ lanes.countP Lane.holdsPermit)) = true := by
    intro hwait
    simp only [Flight.step, hl, if_pos hwait] at hstep
    cases hstep
  refine ⟨⟨lanes.set i r'.value, r'.host, deeds ++ r'.deeds⟩, ?_, ?_⟩
  · simp only [Flight.step, hl, if_neg hpermit, hr', Option.map_some]
  · exact ⟨congrArg (lanes.set i) hsame.value, congrArg (deeds ++ ·) hsame.deeds, hsame.host⟩

/-- **Lanes that move in the same order come to the same from related hosts.** -/
theorem follow_alike (h : ex.host.Respects Rel) : ∀ {order : List Nat} {fl fl' last : Flight σ},
    fl.Alike Rel fl' → fl.follow ex order = some last →
      fl.strokes ex order = fl'.strokes ex order ∧
      ∃ last', fl'.follow ex order = some last' ∧ last.Alike Rel last'
  | [], _, fl', _, hfl, hlast => by
    cases hlast
    exact ⟨rfl, fl', rfl, hfl⟩
  | i :: rest, fl, fl', last, hfl, hlast => by
    obtain ⟨next, hstep, hrest⟩ := Option.bind_eq_some_iff.mp hlast
    obtain ⟨next', hstep', hnext⟩ := Flight.step_alike h hfl hstep
    obtain ⟨hstrokes, last', hlast', hsame⟩ := follow_alike h hnext hrest
    obtain ⟨l, r, hl, -, -⟩ := Flight.step_eq_some hstep
    have hl' : fl'.lanes[i]? = some l := by rw [← hfl.lanes, hl]
    refine ⟨?_, last', Option.bind_eq_some_iff.mpr ⟨next', hstep', hlast'⟩, hsame⟩
    simp only [Flight.strokes, hl, hstep, hl', hstep', hstrokes, Lane.stroke?_alike h l hfl.host]

theorem batchBy_of_alike (h : ex.host.Respects Rel) {planned : List PlannedDelta} {s s' : σ}
    (hs : Rel s s') {order : BatchOrder} {b : BatchRun σ}
    (hb : ex.batchBy planned s order = some b) :
    ∃ b', ex.batchBy planned s' order = some b' ∧ b.strokes = b'.strokes ∧
      b.ran.Alike Rel b'.ran := by
  cases order with
  | inTurn =>
    cases hb
    refine ⟨_, rfl, ?_, respects_executeBatch h planned s s' hs⟩
    have hvalue := (respects_runPlaces h planned (schedule planned) s s' hs).value
    exact congrArg (fun reports => strokesOf (reports.map Prod.snd)) hvalue
  | lanes order =>
    obtain ⟨fl, hfl, hrun⟩ := Option.bind_eq_some_iff.mp hb
    split at hrun
    · rename_i hover
      cases hrun
      have hlaunch : (Flight.launch planned s).Alike Rel (.launch planned s') := ⟨rfl, rfl, hs⟩
      obtain ⟨hstrokes, fl', hfl', hsame⟩ := follow_alike h hlaunch hfl
      have hover' : fl'.isOver = true := by
        unfold Flight.isOver
        rw [← hsame.lanes]
        exact hover
      refine ⟨_, Option.bind_eq_some_iff.mpr ⟨fl', hfl', if_pos hover'⟩, ?_, ?_, hsame.deeds,
        hsame.host⟩
      · exact congrArg (List.map Prod.snd) hstrokes
      · show fl.reports = fl'.reports
        unfold Flight.reports
        rw [hsame.lanes]
    · cases hrun

/-- **From related hosts a batch can be run in the same orders, and in each of them it comes to the
    same.** -/
theorem batchBy_cases (h : ex.host.Respects Rel) (planned : List PlannedDelta) {s s' : σ}
    (hs : Rel s s') (order : BatchOrder) :
    (ex.batchBy planned s order = none ∧ ex.batchBy planned s' order = none) ∨
    ∃ b b', ex.batchBy planned s order = some b ∧ ex.batchBy planned s' order = some b' ∧
      b.strokes = b'.strokes ∧ b.ran.Alike Rel b'.ran := by
  cases hb : ex.batchBy planned s order with
  | some b =>
    obtain ⟨b', hb', hsame⟩ := batchBy_of_alike h hs hb
    exact .inr ⟨b, b', rfl, hb', hsame⟩
  | none =>
    cases hb' : ex.batchBy planned s' order with
    | none => exact .inl ⟨rfl, rfl⟩
    | some b' =>
      obtain ⟨b, hsome, -⟩ := batchBy_of_alike h.swap hs hb'
      rw [hb] at hsome
      cases hsome

end Executor

end Converge
