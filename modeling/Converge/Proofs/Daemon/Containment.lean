import Converge.Proofs.Daemon.Passing
import Converge.Proofs.Executor.Alike
import Converge.Proofs.Feature.Plans

/-!
# Rows that are refused

A row that its policy refuses, be it with an error or because the policy breaks down, stays without
effect on the other keys: a full pass over the rows with it and a full pass over the rows without it
are compared.

* `Snapshot.Adds`: a snapshot with one row more; `exists_passDeltas`: the full pass over it has one
  change more, somewhere in between;
* `Daemon.Unaware`: publishing about one key is not seen from anywhere else. **`sortOut_contained`**,
  `passBy_contained`: so the refused row adds its own end to a pass, and nothing else;
* `Outlet`: a machine beside whatever status rows are published to. A refused row leaves the machine
  and what was published about the other keys as they are without it (**`refused_row_contained`**),
  whatever the machine answers to the commands that it gets.
-/

namespace Converge

open Executor (BatchOrder BatchRun)
open Store (Memory)

variable {σ τ : Type}

/-! ## 1. One row more -/

/-- The second snapshot has one row more, on a key on which the first has none. -/
structure Snapshot.Adds (before after : Snapshot) (id : RowKey) (row : Row) : Prop where
  fresh : before.row? id = none
  row?_eq : ∀ id', after.row? id' = if id' = id then some row else before.row? id'

section Adding

variable {before after : Snapshot} {id : RowKey} {row : Row}

/-- So it is with a row that is put in. -/
theorem Snapshot.adds_of_insert (h : before.insert id row = .ok after)
    (hfresh : before.row? id = none) : before.Adds after id row := by
  refine ⟨hfresh, fun id' => ?_⟩
  unfold Snapshot.insert at h
  split at h
  · cases h
  · rename_i table ht
    cases h
    unfold Snapshot.row?
    rw [SortedMap.get?_insert]
    by_cases hn : id'.table = id.table
    · rw [if_pos hn, Option.bind_some, SortedMap.get?_insert, hn, ht, Option.bind_some]
      simp only [RowKey.eq_iff_of_table hn]
    · rw [if_neg hn, if_neg fun he => hn (congrArg RowKey.table he)]

theorem Snapshot.Adds.row?_of_ne (h : before.Adds after id row) {id' : RowKey} (hne : id' ≠ id) :
    after.row? id' = before.row? id' := by
  rw [h.row?_eq, if_neg hne]

/-- The rows of the second snapshot are those of the first with one more in between. -/
theorem Snapshot.Adds.exists_rows (h : before.Adds after id row) :
    ∃ pre post, before.rows = pre ++ post ∧ after.rows = pre ++ (id, row) :: post := by
  have hrow : (id, row) ∈ after.rows := (Snapshot.mem_rows _).mpr (by rw [h.row?_eq, if_pos rfl])
  obtain ⟨pre, post, hafter⟩ := List.append_of_mem hrow
  refine ⟨pre, post, ?_, hafter⟩
  have hsorted := after.rows_sorted
  rw [hafter] at hsorted
  have hsub : (pre ++ post).Sublist (pre ++ (id, row) :: post) :=
    (List.sublist_cons_self _ _).append_left pre
  have hnodup : (pre ++ (id, row) :: post).Nodup := .of_map _ (SortedMap.nodup_of_sorted hsorted)
  have hnotin : (id, row) ∉ pre ++ post := (List.nodup_middle.mp hnodup |> List.nodup_cons.mp).1
  -- both lists are sorted, so it is enough that they have the same rows
  refine SortedMap.eq_of_sorted_of_perm before.rows_sorted (hsorted.sublist hsub) ?_
  refine (List.perm_ext_iff_of_nodup (.of_map _ (SortedMap.nodup_of_sorted before.rows_sorted))
    (hnodup.sublist hsub)).mpr fun x => ?_
  have hmem : x ∈ pre ++ post ↔ x ∈ after.rows ∧ x ≠ (id, row) := by
    rw [hafter]
    constructor
    · exact fun hx => ⟨hsub.subset hx, fun he => hnotin (he ▸ hx)⟩
    · rintro ⟨hx, hne⟩
      rcases List.mem_append.mp hx with hx | hx
      · exact List.mem_append_left _ hx
      · exact List.mem_append_right _ ((List.mem_cons.mp hx).resolve_left hne)
  obtain ⟨id', row'⟩ := x
  rw [hmem, Snapshot.mem_rows, Snapshot.mem_rows]
  by_cases hid : id' = id
  · subst hid
    rw [h.fresh, h.row?_eq, if_pos rfl]
    refine ⟨nofun, fun hx => absurd ?_ hx.2⟩
    rw [Option.some.inj hx.1]
  · rw [h.row?_of_ne hid]
    exact ⟨fun hx => ⟨hx, fun he => hid (congrArg Prod.fst he)⟩, And.left⟩

/-- So a full pass has one change more, and the other changes are on other keys. -/
theorem Snapshot.Adds.exists_passDeltas (h : before.Adds after id row) {cache : Cache}
    (hcache : cache.get? id = none) :
    ∃ pre post, passDeltas cache before = pre ++ post ∧
      passDeltas cache after = pre ++ ⟨id, none, some row⟩ :: post ∧
      ∀ delta ∈ pre ++ post, delta.id ≠ id := by
  obtain ⟨pre, post, hbefore, hafter⟩ := h.exists_rows
  have hgone : Daemon.goneDeltas cache after = Daemon.goneDeltas cache before := by
    refine congrArg (List.map _) (List.filter_congr fun e he => ?_)
    have hne : e.1 ≠ id := fun heq => by
      have hsome := (SortedMap.get?_eq_some_iff cache e.1 e.2).mpr he
      rw [heq, hcache] at hsome
      cases hsome
    show (after.row? e.1).isNone = (before.row? e.1).isNone
    rw [h.row?_of_ne hne]
  refine ⟨pre.map (Daemon.rowDelta cache),
    post.map (Daemon.rowDelta cache) ++ Daemon.goneDeltas cache before, ?_, ?_, ?_⟩
  · rw [Daemon.passDeltas_eq, Daemon.rowDeltas, hbefore, List.map_append, List.append_assoc]
  · have hdelta : Daemon.rowDelta cache (id, row) = ⟨id, none, some row⟩ := by
      rw [Daemon.rowDelta, hcache]
    rw [Daemon.passDeltas_eq, Daemon.rowDeltas, hafter, List.map_append, List.map_cons, hdelta,
      hgone, List.append_assoc]
    rfl
  · intro delta hdelta heq
    have hmem : delta ∈ passDeltas cache before := by
      rwa [Daemon.passDeltas_eq, Daemon.rowDeltas, hbefore, List.map_append, List.append_assoc]
    obtain ⟨hold, hnew, hthere⟩ := Daemon.mem_passDeltas.mp hmem
    rw [heq] at hold hnew
    rw [hold, hnew, h.fresh, hcache] at hthere
    rcases hthere with hthere | hthere <;> cases hthere

end Adding

/-! ## 2. One entry more -/

/-- The second has one audit entry more. -/
def OneMore (entry : Audit.Entry) (deeds deeds' : List Deed) : Prop :=
  ∃ pre post, deeds = pre ++ post ∧ deeds' = pre ++ .audit entry :: post

namespace OneMore

variable {entry : Audit.Entry} {deeds deeds' : List Deed}

theorem append_left (h : OneMore entry deeds deeds') (more : List Deed) :
    OneMore entry (more ++ deeds) (more ++ deeds') := by
  obtain ⟨pre, post, rfl, rfl⟩ := h
  exact ⟨more ++ pre, post, by rw [List.append_assoc], by rw [List.append_assoc]⟩

theorem append_right (h : OneMore entry deeds deeds') (more : List Deed) :
    OneMore entry (deeds ++ more) (deeds' ++ more) := by
  obtain ⟨pre, post, rfl, rfl⟩ := h
  exact ⟨pre, post ++ more, by rw [List.append_assoc], by rw [List.append_assoc]; rfl⟩

/-- The commands are the same. -/
theorem commands_eq (h : OneMore entry deeds deeds') :
    deeds'.filterMap Deed.command? = deeds.filterMap Deed.command? := by
  obtain ⟨pre, post, rfl, rfl⟩ := h
  rw [List.filterMap_append, List.filterMap_append]
  rfl

end OneMore

/-! ## 3. Publishing about one key -/

/-- Related hosts differ at most in what was published about one key: no access to the host and no
    publishing about another key tells them apart, and publishing about the key on the second of them
    leaves them related. -/
structure Daemon.Unaware (d : Daemon σ) (Rel : σ → σ → Prop) (id : RowKey) : Prop where
  refl : ∀ s, Rel s s
  host : d.executor.host.Respects Rel
  publish : ∀ delta ok s s', delta.id ≠ id → Rel s s' →
    Rel (d.publish delta ok s) (d.publish delta ok s')
  unseen : ∀ delta ok s s', delta.id = id → Rel s s' → Rel s (d.publish delta ok s')

namespace Daemon

variable {d : Daemon σ} {Rel : σ → σ → Prop} {id : RowKey}

theorem respects_commit (h : d.Unaware Rel id) {delta : RowDelta} (hne : delta.id ≠ id) (ok : Bool)
    (cache : Cache) : Respects Rel (d.commit delta ok cache) :=
  fun s s' hs => ⟨rfl, rfl, h.publish delta ok s s' hne hs⟩

theorem respects_sortOut (h : d.Unaware Rel id) (cache : Cache) : ∀ {deltas : List RowDelta},
    (∀ delta ∈ deltas, delta.id ≠ id) → Respects Rel (d.sortOut cache deltas)
  | [], _ => .idle _
  | delta :: rest, hne => by
    have hrest := respects_sortOut h cache fun b hb => hne b (List.mem_cons_of_mem _ hb)
    intro s s' hs
    unfold sortOut
    cases d.registry.plan delta with
    | ok actions => exact (hrest s s' hs).andThen fun _ => .idle _
    | error e =>
      exact (respects_commit h (hne delta List.mem_cons_self) false cache s s' hs).andThen
        fun _ => hrest.andThen fun _ => .idle _

theorem respects_settle (h : d.Unaware Rel id) : ∀ {rows : List (RowDelta × DeltaReport)}
    (cache : Cache), (∀ e ∈ rows, e.1.id ≠ id) → Respects Rel (d.settle rows cache)
  | [], _, _ => .idle _
  | (delta, report) :: rest, cache, hne => by
    have hcommit := respects_commit h (hne _ List.mem_cons_self) report.allSucceeded cache
    have hrest : ∀ e ∈ rest, e.1.id ≠ id := fun e he => hne e (List.mem_cons_of_mem _ he)
    intro s s' hs
    unfold settle
    exact (hcommit s s' hs).andThen fun cache' =>
      (respects_settle h cache' hrest).andThen fun _ => .idle _

/-- Sorting out has come to the same, but for one change that was refused. -/
structure SortedAlike (Rel : σ → σ → Prop) (entry : Audit.Entry) (x y : Ran σ Sorted) : Prop where
  planned : y.value.planned = x.value.planned
  refused : y.value.refused = x.value.refused + 1
  deeds : OneMore entry x.deeds y.deeds
  host : Rel x.host y.host

/-- **A refused change adds its own end to the sorting out, and nothing else.** -/
theorem sortOut_contained (h : d.Unaware Rel id) (cache : Cache) {delta : RowDelta}
    (hid : delta.id = id) {e : Error} (hrefused : d.registry.plan delta = .error e)
    {post : List RowDelta} : ∀ {pre : List RowDelta}, (∀ b ∈ pre ++ post, b.id ≠ id) →
      ∀ {s s' : σ}, Rel s s' → SortedAlike Rel (d.commitEntry delta false)
        (d.sortOut cache (pre ++ post) s) (d.sortOut cache (pre ++ delta :: post) s')
  | [], hne, s, s', hs => by
    have hpost : Ran.Alike Rel (d.sortOut cache post s)
        (d.sortOut cache post (d.publish delta false s')) :=
      respects_sortOut h cache hne s _ (h.unseen delta false s s' hid hs)
    have heq : d.sortOut cache (delta :: post) s' =
        (d.commit delta false cache s').andThen fun _ s =>
          (d.sortOut cache post s).andThen fun later s =>
            .idle { later with refused := later.refused + 1 } s := by
      conv => lhs; unfold sortOut
      rw [hrefused]
    rw [List.nil_append, List.nil_append, heq]
    refine ⟨(congrArg Sorted.planned hpost.value).symm, ?_, ?_, hpost.host⟩
    · exact congrArg (·.refused + 1) hpost.value.symm
    · refine ⟨[], _, rfl, ?_⟩
      show [Deed.audit _] ++ ((d.sortOut cache post (d.publish delta false s')).deeds ++ []) = _
      rw [List.append_nil, ← hpost.deeds]
      rfl
  | b :: pre, hne, s, s', hs => by
    have hb : b.id ≠ id := hne b List.mem_cons_self
    have hrest : ∀ c ∈ pre ++ post, c.id ≠ id := fun c hc => hne c (List.mem_cons_of_mem _ hc)
    rw [List.cons_append, List.cons_append]
    unfold sortOut
    cases d.registry.plan b with
    | ok actions =>
      have ih := sortOut_contained h cache hid hrefused hrest hs
      exact ⟨congrArg (_ :: ·) ih.planned, ih.refused, ih.deeds.append_right [], ih.host⟩
    | error err =>
      have ih := sortOut_contained h cache hid hrefused hrest (h.publish b false s s' hb hs)
      exact ⟨ih.planned, congrArg (· + 1) ih.refused,
        (ih.deeds.append_right []).append_left [.audit (d.commitEntry b false)], ih.host⟩

/-- What a refused row adds to a full pass: its own end, one change and one failure. -/
structure Contained (Rel : σ → σ → Prop) (entry : Audit.Entry) (run run' : PassRun σ) : Prop where
  /-- The batch is the same, and so are its groups. -/
  planned_eq : run'.planned = run.planned
  /-- The same actions were done in the same order and came out the same. -/
  strokes_eq : run'.batch.strokes = run.batch.strokes
  reports_eq : run'.batch.ran.value = run.batch.ran.value
  /-- All that was done is the same but for the entry about the refused row. -/
  deeds_eq : OneMore entry run.done.deeds run'.done.deeds
  commands_eq : run'.done.commands = run.done.commands
  applied_eq : run'.done.value.1.applied = run.done.value.1.applied
  summary_eq : run'.done.value.2 = ⟨run.done.value.2.deltas + 1, run.done.value.2.applied,
    run.done.value.2.failed + 1⟩
  host_eq : Rel run.done.host run'.done.host

theorem contained_passRun (h : d.Unaware Rel id) {before after : Snapshot} {k : Knowledge}
    {entry : Audit.Entry} {x y : Ran σ Sorted} (hsorted : SortedAlike Rel entry x y)
    (hids : ∀ p ∈ x.value.planned, p.delta.id ≠ id)
    (hlength : (passDeltas k.applied after).length = (passDeltas k.applied before).length + 1)
    {b b' : BatchRun σ} (hstrokes : b.strokes = b'.strokes) (hran : b.ran.Alike Rel b'.ran) :
    Contained Rel entry (d.passRun before k x b) (d.passRun after k y b') := by
  have hrows : ∀ e ∈ (x.value.planned.map (·.delta)).zip b.ran.value, e.1.id ≠ id := by
    intro e he
    obtain ⟨p, hp, hpe⟩ := List.mem_map.mp (List.of_mem_zip he).1
    rw [← hpe]
    exact hids p hp
  -- the rows of both batches end in the same way
  have hsettle : Ran.Alike Rel
      (d.settle ((x.value.planned.map (·.delta)).zip b.ran.value) k.applied b.ran.host)
      (d.settle ((y.value.planned.map (·.delta)).zip b'.ran.value) k.applied b'.ran.host) := by
    rw [hsorted.planned, ← hran.value]
    exact respects_settle h k.applied hrows _ _ hran.host
  have hdone : OneMore entry (d.passRun before k x b).done.deeds
      (d.passRun after k y b').done.deeds := by
    show OneMore entry (x.deeds ++ (b.ran.deeds ++ ((d.settle _ _ b.ran.host).deeds ++ [])))
      (y.deeds ++ (b'.ran.deeds ++ ((d.settle _ _ b'.ran.host).deeds ++ [])))
    rw [← hran.deeds, ← hsettle.deeds]
    exact hsorted.deeds.append_right _
  refine ⟨hsorted.planned, hstrokes.symm, hran.value.symm, hdone, hdone.commands_eq,
    congrArg Settled.cache hsettle.value.symm, ?_, hsettle.host⟩
  show PassSummary.mk _ (d.settle _ _ b'.ran.host).value.applied
    (y.value.refused + (d.settle _ _ b'.ran.host).value.failed) = _
  rw [← hsettle.value, hlength, hsorted.refused]
  exact congrArg (PassSummary.mk _ _) (Nat.add_right_comm ..)

/-- **A refused row adds its own end to a full pass, and nothing else**, in whatever order the batch is
    run; and the batch can be run in the same orders. -/
theorem passBy_contained (h : d.Unaware Rel id) {before after : Snapshot} {k : Knowledge} {row : Row}
    (hadds : before.Adds after id row) (hcache : k.applied.get? id = none) {e : Error}
    (hrefused : d.registry.plan ⟨id, none, some row⟩ = .error e) (s : σ) (order : BatchOrder) :
    Option.Rel (Contained Rel (d.commitEntry ⟨id, none, some row⟩ false))
      (d.passBy before k s order) (d.passBy after k s order) := by
  obtain ⟨pre, post, hbefore, hafter, hne⟩ := hadds.exists_passDeltas hcache
  have hsorted : SortedAlike Rel (d.commitEntry ⟨id, none, some row⟩ false)
      (d.sortedFor before k s) (d.sortedFor after k s) := by
    unfold sortedFor
    rw [hbefore, hafter]
    exact sortOut_contained h k.applied rfl hrefused hne (h.refl s)
  have hlength : (passDeltas k.applied after).length = (passDeltas k.applied before).length + 1 := by
    rw [hbefore, hafter, List.length_append, List.length_append, List.length_cons, Nat.add_assoc]
  have hids : ∀ p ∈ (d.sortedFor before k s).value.planned, p.delta.id ≠ id := by
    intro p hp
    unfold sortedFor at hp
    rw [planned_sortOut, hbefore] at hp
    obtain ⟨delta, hdelta, hplan⟩ := List.mem_filterMap.mp hp
    rw [(d.planned?_eq_some_iff.mp hplan).1]
    exact hne delta hdelta
  have hbatch := Executor.batchBy_cases h.host (d.sortedFor before k s).value.planned hsorted.host
    order
  unfold passBy
  rw [hsorted.planned]
  rcases hbatch with ⟨hb, hb'⟩ | ⟨b, b', hb, hb', hstrokes, hran⟩
  · rw [hb, hb']
    exact .none
  · rw [hb, hb']
    exact .some (contained_passRun h hsorted hids hlength hstrokes hran)

end Daemon

/-! ## 4. Whatever is published to -/

/-- A machine beside a place that status rows are published to, with all that was published there so
    far: a status row of a key, or that there is none any more. -/
structure Outlet (τ ρ : Type) where
  machine : τ
  place : ρ
  published : List (RowKey × Option Row)

namespace Outlet

variable {τ ρ : Type}

/-- Actions run on the machine. -/
def host (h : Host τ) : Host (Outlet τ ρ) where
  run c s := ((h.run c s.machine).1, { s with machine := (h.run c s.machine).2 })
  writeFile path content s := ((h.writeFile path content s.machine).1,
    { s with machine := (h.writeFile path content s.machine).2 })
  removeFile path s := ((h.removeFile path s.machine).1,
    { s with machine := (h.removeFile path s.machine).2 })

/-- The place answers as it does, and what it is asked is noted. -/
def sink (place : StatusSink ρ) : StatusSink (Outlet τ ρ) where
  set id row s := ((place.set id row s.place).1,
    { s with place := (place.set id row s.place).2, published := s.published ++ [(id, some row)] })
  clear id s := ((place.clear id s.place).1,
    { s with place := (place.clear id s.place).2, published := s.published ++ [(id, none)] })

/-- What was published about keys other than the given one. -/
def publishedOff (id : RowKey) (s : Outlet τ ρ) : List (RowKey × Option Row) :=
  s.published.filter fun x => x.1 ≠ id

/-- The machines are the same, and so is what was published about the other keys. -/
structure AlikeOff (id : RowKey) (s s' : Outlet τ ρ) : Prop where
  machine_eq : s'.machine = s.machine
  publishedOff_eq : s'.publishedOff id = s.publishedOff id

end Outlet

section Outlets

variable {ρ : Type} {d : Daemon (Outlet τ ρ)} {h : Host τ} {place : StatusSink ρ}

/-- No publishing is seen on the machine. -/
theorem machine_publish_outlet (hsink : d.sink = none ∨ d.sink = some (Outlet.sink place))
    (delta : RowDelta) (ok : Bool) (s : Outlet τ ρ) :
    (d.publish delta ok s).machine = s.machine := by
  unfold Daemon.publish
  rcases hsink with hsink | hsink <;> rw [hsink]
  cases delta.new with
  | none => cases ok <;> rfl
  | some new =>
    cases hstatus : d.registry.status delta.id new ok with
    | none => simp only [hstatus]
    | some row =>
      simp only [hstatus]
      rfl

/-- A change is published as what there is to announce about it, if anybody is to hear of it. -/
theorem published_publish_outlet (hsink : d.sink = none ∨ d.sink = some (Outlet.sink place))
    (delta : RowDelta) (ok : Bool) (s : Outlet τ ρ) :
    (d.publish delta ok s).published = s.published ++
      if d.sink.isSome then
        ((d.registry.announcement delta ok).map fun word => (delta.id, word)).toList
      else [] := by
  unfold Daemon.publish Registry.announcement
  rcases hsink with hsink | hsink <;> rw [hsink]
  · exact (List.append_nil _).symm
  · cases delta.new with
    | none =>
      cases ok with
      | false => exact (List.append_nil _).symm
      | true => rfl
    | some new =>
      cases hstatus : d.registry.status delta.id new ok with
      | none =>
        simp only [hstatus]
        exact (List.append_nil _).symm
      | some row => simp only [hstatus]; rfl

/-- **Nothing but what was published about a key tells that anything was.** -/
theorem unaware_outlet (hhost : d.executor.host = Outlet.host h)
    (hsink : d.sink = none ∨ d.sink = some (Outlet.sink place)) (id : RowKey) :
    d.Unaware (Outlet.AlikeOff id) id where
  refl _ := ⟨rfl, rfl⟩
  host := by
    rw [hhost]
    refine ⟨fun c s s' hs => ?_, fun path content s s' hs => ?_, fun path s s' hs => ?_⟩ <;>
      simp only [Outlet.host, hs.machine_eq] <;>
      exact ⟨trivial, rfl, hs.publishedOff_eq⟩
  publish delta ok s s' _ hs := by
    refine ⟨?_, ?_⟩
    · rw [machine_publish_outlet hsink, machine_publish_outlet hsink, hs.machine_eq]
    · unfold Outlet.publishedOff
      rw [published_publish_outlet hsink, published_publish_outlet hsink, List.filter_append,
        List.filter_append]
      exact congrArg (· ++ _) hs.publishedOff_eq
  unseen delta ok s s' hid hs := by
    refine ⟨(machine_publish_outlet hsink ..).trans hs.machine_eq, ?_⟩
    unfold Outlet.publishedOff
    rw [published_publish_outlet hsink, List.filter_append]
    -- all of it is about the key
    have hnil : (if d.sink.isSome then
        ((d.registry.announcement delta ok).map fun word => (delta.id, word)).toList
        else []).filter (fun x => x.1 ≠ id) = [] := by
      refine List.filter_eq_nil_iff.mpr fun x hx => ?_
      split at hx
      · obtain ⟨word, -, rfl⟩ := Option.map_eq_some_iff.mp (Option.mem_toList.mp hx)
        simp [hid]
      · cases hx
    rw [hnil, List.append_nil]
    exact hs.publishedOff_eq

/-- **A row that its policy refuses stays without effect on the other keys.** The row is on a key that
    neither the snapshot nor the applied rows know; the machine may answer to commands and to changes
    of files whatever it likes, given what it has been asked before. With the row the full pass does
    the same actions in the same order, which come out the same, publishes the same about the other
    keys, whatever it publishes to, and leaves the same applied rows; it counts one change and one
    failure more. So it is in whatever order the batch is run. -/
theorem refused_row_contained (hhost : d.executor.host = Outlet.host h)
    (hsink : d.sink = none ∨ d.sink = some (Outlet.sink place)) {before after : Snapshot}
    {k : Knowledge} {id : RowKey} {row : Row} (hadds : before.Adds after id row)
    (hcache : k.applied.get? id = none) {e : Error}
    (hrefused : d.registry.plan ⟨id, none, some row⟩ = .error e) (s : Outlet τ ρ) :
    (∃ run run', d.passBy before k s .inTurn = some run ∧ run.done = d.fullPass before k s ∧
      d.passBy after k s .inTurn = some run' ∧ run'.done = d.fullPass after k s ∧
      Daemon.Contained (Outlet.AlikeOff id) (d.commitEntry ⟨id, none, some row⟩ false) run run') ∧
    ∀ order, Option.Rel
      (Daemon.Contained (Outlet.AlikeOff id) (d.commitEntry ⟨id, none, some row⟩ false))
      (d.passBy before k s order) (d.passBy after k s order) := by
  have hcontained := Daemon.passBy_contained (unaware_outlet hhost hsink id) hadds hcache hrefused s
  refine ⟨?_, hcontained⟩
  obtain ⟨run, hrun, hdone⟩ := d.passBy_inTurn before k s
  obtain ⟨run', hrun', hdone'⟩ := d.passBy_inTurn after k s
  have hinTurn := hcontained .inTurn
  rw [hrun, hrun'] at hinTurn
  cases hinTurn with
  | some h => exact ⟨run, run', hrun, hdone, hrun', hdone', h⟩

/-- The store as a place for status rows. -/
def memorySink : StatusSink Memory :=
  ⟨fun id row m => m.setStatus id row, fun id m => m.clearStatus id⟩

/-- The daemon of the features on a machine that remembers its commands, and on which a second command
    on a unit fails. -/
def attended : Daemon (Outlet (List CommandSpec) Memory) where
  name := FeatureConfig.daemonName
  tables := [FeatureConfig.table]
  registry := ⟨SortedMap.empty.insert FeatureConfig.table twoChips.manager.policy⟩
  executor := ⟨Outlet.host (Executor.firstOnly {}), {}, FeatureConfig.daemonName⟩
  sink := some (Outlet.sink memorySink)
  settings := LoopConfig.settings {}

/-- A feature that is to run. -/
def oneFeature : Snapshot :=
  ⟨.ofList [(FeatureConfig.table, .ofList [("ntp", .ofList [("state", "enabled")])])]⟩

/-- A row whose state was never filled in. -/
def unfilledRow : Row := .ofList [("state", "\x7b\x7b state \x7d\x7d")]

/-- The rows with it. -/
def withUnfilled : Snapshot :=
  ⟨.ofList [(FeatureConfig.table,
    .ofList [("bgp", unfilledRow), ("ntp", .ofList [("state", "enabled")])])]⟩

/-- A feature that was applied before and is gone. -/
def lldpApplied : Knowledge :=
  ⟨attended.fresh.snapshot,
    .ofList [(⟨FeatureConfig.table, "lldp"⟩, .ofList [("state", "enabled")])]⟩

/-- With a row whose state is no state the pass does just what it does without it: it starts one
    feature and removes another, as far as the machine lets it. -/
theorem refused_row_contained_unfilled :
    let id : RowKey := ⟨FeatureConfig.table, "bgp"⟩
    let entry := attended.commitEntry ⟨id, none, some unfilledRow⟩ false
    let s : Outlet (List CommandSpec) Memory := ⟨[], {}, []⟩
    oneFeature.Adds withUnfilled id unfilledRow ∧ lldpApplied.applied.get? id = none ∧
    attended.registry.plan ⟨id, none, some unfilledRow⟩ =
      .error (.policy "FEATURE" "bgp" "invalid feature state '\x7b\x7b state \x7d\x7d'") ∧
    ((∃ run run', attended.passBy oneFeature lldpApplied s .inTurn = some run ∧
        run.done = attended.fullPass oneFeature lldpApplied s ∧
        attended.passBy withUnfilled lldpApplied s .inTurn = some run' ∧
        run'.done = attended.fullPass withUnfilled lldpApplied s ∧
        Daemon.Contained (Outlet.AlikeOff id) entry run run') ∧
      ∀ order, Option.Rel (Daemon.Contained (Outlet.AlikeOff id) entry)
        (attended.passBy oneFeature lldpApplied s order)
        (attended.passBy withUnfilled lldpApplied s order)) ∧
    (attended.fullPass oneFeature lldpApplied s).value.2 = ⟨2, 0, 2⟩ ∧
    (attended.fullPass withUnfilled lldpApplied s).value.2 = ⟨3, 0, 3⟩ := by
  intro id entry s
  have hadds : oneFeature.Adds withUnfilled id unfilledRow :=
    Snapshot.adds_of_insert (by decide +kernel) (by decide +kernel)
  have hcache : lldpApplied.applied.get? id = none := by decide +kernel
  have hrefused : attended.registry.plan ⟨id, none, some unfilledRow⟩ = .error
      (.policy "FEATURE" "bgp" "invalid feature state '\x7b\x7b state \x7d\x7d'") := by
    decide +kernel
  exact ⟨hadds, hcache, hrefused, refused_row_contained rfl (.inr rfl) hadds hcache hrefused s,
    by decide +kernel, by decide +kernel⟩

end Outlets

end Converge
