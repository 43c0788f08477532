import Converge.Proofs.Executor.Strokes

/-!
# The strokes of a row

Of the strokes of a batch, those of one row are those of its report, in the order of the report. This
needs only that no two rows of the batch have one name, and holds whatever the order of the batch is:
the lanes mix the strokes of different rows, but a row belongs to one lane.

* `strokesOn_strokesOf`: the strokes of a row among those of reports;
* `strokesOn_lanes`: lanes that have each done the strokes of their reports;
* **`strokesOn_batchBy`**: any batch; `strokesOn_report` says it of one report.
-/

namespace Converge

/-- The strokes of a row. -/
def strokesOn (id : RowKey) (strokes : List Stroke) : List Stroke := strokes.filter fun x => x.id = id

/-! ## 1. Reports -/

section Reports

variable {reports reports' : List DeltaReport}

/-- The strokes of a row are those of the reports on it. -/
theorem strokesOn_strokesOf (id : RowKey) (reports : List DeltaReport) :
    strokesOn id (strokesOf reports) = strokesOf (reports.filter fun r => r.id = id) := by
  induction reports with
  | nil => rfl
  | cons r rest ih =>
    have hcons : strokesOn id (strokesOf (r :: rest)) =
        strokesOn id (r.reports.map (Stroke.mk r.id)) ++ strokesOn id (strokesOf rest) :=
      List.filter_append ..
    rw [hcons, ih]
    by_cases hid : r.id = id
    · have hall : strokesOn id (r.reports.map (Stroke.mk r.id)) = r.reports.map (Stroke.mk r.id) :=
        List.filter_eq_self.mpr fun x hx => by
          obtain ⟨y, -, rfl⟩ := List.mem_map.mp hx
          exact decide_eq_true hid
      rw [hall, List.filter_cons_of_pos (by simpa using hid)]
      rfl
    · have hnone : strokesOn id (r.reports.map (Stroke.mk r.id)) = [] :=
        List.filter_eq_nil_iff.mpr fun x hx => by
          obtain ⟨y, -, rfl⟩ := List.mem_map.mp hx
          simpa using hid
      rw [hnone, List.filter_cons_of_neg (by simpa using hid), List.nil_append]

/-- Where names are not used twice, a name belongs to one report. -/
theorem filter_id_eq (hnodup : (reports.map (·.id)).Nodup) {r : DeltaReport} (hr : r ∈ reports) :
    reports.filter (fun x => x.id = r.id) = [r] := by
  induction reports with
  | nil => cases hr
  | cons first rest ih =>
    obtain ⟨hnew, hnodup⟩ := List.nodup_cons.mp hnodup
    rcases List.mem_cons.mp hr with rfl | hr
    · have hrest : rest.filter (fun x => x.id = r.id) = [] :=
        List.filter_eq_nil_iff.mpr fun x hx => by
          have hne : x.id ≠ r.id := fun he => hnew (List.mem_map.mpr ⟨x, hx, he⟩)
          simpa using hne
      rw [List.filter_cons_of_pos (by simp), hrest]
    · have hne : first.id ≠ r.id := fun he => hnew (List.mem_map.mpr ⟨r, hr, he.symm⟩)
      rw [List.filter_cons_of_neg (by simpa using hne), ih hnodup hr]

theorem strokesOn_of_mem (hnodup : (reports.map (·.id)).Nodup) {r : DeltaReport}
    (hr : r ∈ reports) : strokesOn r.id (strokesOf reports) = r.reports.map (Stroke.mk r.id) := by
  rw [strokesOn_strokesOf, filter_id_eq hnodup hr]
  exact List.append_nil _

/-- No report on the row, no strokes of it. -/
theorem strokesOn_eq_nil {id : RowKey} (h : ∀ r ∈ reports, r.id ≠ id) :
    strokesOn id (strokesOf reports) = [] := by
  have hnone : reports.filter (fun r => r.id = id) = [] :=
    List.filter_eq_nil_iff.mpr fun r hr => by simpa using h r hr
  rw [strokesOn_strokesOf, hnone]
  rfl

/-- The order of the reports does not matter for the strokes of one row. -/
theorem strokesOn_perm (h : reports.Perm reports') (hnodup : (reports.map (·.id)).Nodup)
    (id : RowKey) : strokesOn id (strokesOf reports) = strokesOn id (strokesOf reports') := by
  by_cases hid : ∃ r ∈ reports, r.id = id
  · obtain ⟨r, hr, rfl⟩ := hid
    rw [strokesOn_of_mem hnodup hr,
      strokesOn_of_mem ((h.map (·.id)).nodup_iff.mp hnodup) (h.mem_iff.mp hr)]
  · have hnone : ∀ r ∈ reports, r.id ≠ id := fun r hr he => hid ⟨r, hr, he⟩
    rw [strokesOn_eq_nil hnone, strokesOn_eq_nil fun r hr => hnone r (h.mem_iff.mpr hr)]

end Reports

/-! ## 2. Lanes -/

section Lanes

variable {lanes : List (List DeltaReport)} {strokes : List (Nat × Stroke)}

/-- A name that is not used twice belongs to one lane. -/
theorem lane_eq_of_id (hnodup : (lanes.flatten.map (·.id)).Nodup) {i j : Nat}
    {rs rs' : List DeltaReport} (hi : lanes[i]? = some rs) (hj : lanes[j]? = some rs')
    {r r' : DeltaReport} (hr : r ∈ rs) (hr' : r' ∈ rs') (hid : r.id = r'.id) : i = j := by
  have hpairwise : lanes.Pairwise fun xs ys => (xs.map (·.id)).Disjoint (ys.map (·.id)) := by
    rw [List.map_flatten, List.nodup_flatten] at hnodup
    exact List.pairwise_map.mp hnodup.2
  have hdisjoint : ∀ {a b : Nat} {xs ys : List DeltaReport}, a < b → lanes[a]? = some xs →
      lanes[b]? = some ys → (xs.map (·.id)).Disjoint (ys.map (·.id)) := fun hlt ha hb => by
    obtain ⟨hxs, rfl⟩ := List.getElem?_eq_some_iff.mp ha
    obtain ⟨hys, rfl⟩ := List.getElem?_eq_some_iff.mp hb
    exact List.pairwise_iff_getElem.mp hpairwise _ _ hxs hys hlt
  rcases Nat.lt_trichotomy i j with hlt | heq | hlt
  · exact (hdisjoint hlt hi hj (List.mem_map_of_mem hr) (hid ▸ List.mem_map_of_mem hr')).elim
  · exact heq
  · exact (hdisjoint hlt hj hi (List.mem_map_of_mem hr') (hid ▸ List.mem_map_of_mem hr)).elim

/-- **Lanes that have each done the strokes of their reports have done those of each row in order.** -/
theorem strokesOn_lanes (hnodup : (lanes.flatten.map (·.id)).Nodup)
    (howned : ∀ x ∈ strokes, x.1 < lanes.length)
    (hlane : ∀ (i : Nat) (rs : List DeltaReport), lanes[i]? = some rs →
      (strokes.filter fun x => x.1 = i).map (·.2) = strokesOf rs) (id : RowKey) :
    strokesOn id (strokes.map (·.2)) = strokesOn id (strokesOf lanes.flatten) := by
  -- a stroke comes from a report of its lane
  have hsource : ∀ x ∈ strokes, ∃ rs r, lanes[x.1]? = some rs ∧ r ∈ rs ∧ r.id = x.2.id := by
    intro x hx
    have hl := List.getElem?_eq_getElem (howned x hx)
    have hmine : x.2 ∈ (strokes.filter fun y => y.1 = x.1).map (·.2) :=
      List.mem_map_of_mem (List.mem_filter.mpr ⟨hx, by simp⟩)
    rw [hlane _ _ hl] at hmine
    obtain ⟨r, hr, hid, -⟩ := mem_strokesOf.mp hmine
    exact ⟨_, r, hl, hr, hid⟩
  by_cases hid : ∃ r ∈ lanes.flatten, r.id = id
  · obtain ⟨r, hr, rfl⟩ := hid
    obtain ⟨rs, hrs, hmem⟩ := List.mem_flatten.mp hr
    obtain ⟨i, hi⟩ := List.getElem?_of_mem hrs
    have hwhole : strokesOn r.id (strokes.map (·.2)) = strokesOn r.id (strokesOf rs) := by
      rw [← hlane i rs hi]
      unfold strokesOn
      rw [List.filter_map, List.filter_map, List.filter_filter]
      refine congrArg _ (List.filter_congr fun x hx => ?_)
      by_cases hxr : x.2.id = r.id
      · obtain ⟨rs', r', hl, hr', hxid⟩ := hsource x hx
        have hxi : x.1 = i := lane_eq_of_id hnodup hl hi hr' hmem (hxid.trans hxr)
        simp [hxr, hxi]
      · simp [hxr]
    have hpart : (rs.map (·.id)).Nodup :=
      hnodup.sublist ((List.sublist_flatten_of_mem hrs).map _)
    rw [hwhole, strokesOn_of_mem hpart hmem, strokesOn_of_mem hnodup hr]
  · have hnone : ∀ r ∈ lanes.flatten, r.id ≠ id := fun r hr he => hid ⟨r, hr, he⟩
    rw [strokesOn_eq_nil hnone]
    refine List.filter_eq_nil_iff.mpr fun y hy => ?_
    obtain ⟨x, hx, rfl⟩ := List.mem_map.mp hy
    obtain ⟨rs, r, hl, hr, hxid⟩ := hsource x hx
    have hne := hnone r (List.mem_flatten.mpr ⟨rs, List.mem_of_getElem? hl, hr⟩)
    simpa [← hxid] using hne

end Lanes

/-! ## 3. Batches -/

namespace Executor

variable {σ : Type} {ex : Executor σ} {planned : List PlannedDelta} {s : σ} {order : BatchOrder}
  {b : BatchRun σ}

/-- The names of reports that are about the rows of a batch in some order. -/
theorem nodup_ids_of_schedule (hids : (planned.map (·.delta.id)).Nodup)
    {reports : List (Nat × DeltaReport)}
    (hr : reports.map (Prod.map id DeltaReport.subject) =
      (chainsAt planned (schedule planned)).map (Prod.map id PlannedDelta.subject)) :
    ((reports.map (·.2)).map (·.id)).Nodup := by
  have hperm := (SortedMap.entries_ofList_perm (nodup_places (schedule_perm planned) hr)).map (·.2)
  refine (hperm.map (·.id)).nodup_iff.mp ?_
  rwa [ids_eq_of_subjects (subject_collect (schedule_perm planned) hr)]

/-- Reports that are put into the order of the rows keep the strokes of each row. -/
theorem strokesOn_collect (hids : (planned.map (·.delta.id)).Nodup)
    {reports : List (Nat × DeltaReport)}
    (hr : reports.map (Prod.map id DeltaReport.subject) =
      (chainsAt planned (schedule planned)).map (Prod.map id PlannedDelta.subject)) (id : RowKey) :
    strokesOn id (strokesOf (reports.map (·.2))) =
      strokesOn id (strokesOf ((SortedMap.ofList reports).entries.map (·.2))) := by
  have hperm := (SortedMap.entries_ofList_perm (nodup_places (schedule_perm planned) hr)).map (·.2)
  exact strokesOn_perm hperm.symm (nodup_ids_of_schedule hids hr) id

/-- **Whatever the order of a batch, the strokes of a row are those of its report, in order.** -/
theorem strokesOn_batchBy (h : ex.batchBy planned s order = some b)
    (hids : (planned.map (·.delta.id)).Nodup) (id : RowKey) :
    strokesOn id b.strokes = strokesOn id (strokesOf b.ran.value) := by
  cases order with
  | inTurn =>
    cases h
    refine strokesOn_collect hids ?_ id
    rw [runPlaces_eq, subject_runNumbered]
  | lanes order =>
    obtain ⟨fl, hfl, hb⟩ := Option.bind_eq_some_iff.mp h
    split at hb
    · rename_i hover
      cases hb
      have hsubjects := subject_lanes hfl hover
      have hflatten : (fl.lanes.map fun l => l.finished.map (·.2)).flatten =
          (fl.lanes.flatMap Lane.finished).map (·.2) := by
        rw [List.map_flatMap, List.flatMap_def]
      have htold := Flight.told_follow hfl
      refine Eq.trans (b := strokesOn id (strokesOf
        (fl.lanes.map fun l => l.finished.map (·.2)).flatten)) (strokesOn_lanes ?_ ?_ ?_ id) ?_
      · rw [hflatten]
        exact nodup_ids_of_schedule hids hsubjects
      · intro x hx
        rw [List.length_map, htold.length]
        exact htold.owned x hx
      · intro i rs hi
        rw [List.getElem?_map] at hi
        obtain ⟨l, hl, rfl⟩ := Option.map_eq_some_iff.mp hi
        have hlt : i < (groupsOf planned).length := by
          have hlt := (List.getElem?_eq_some_iff.mp hl).1
          rwa [htold.length, show (Flight.launch planned s).lanes.length = (groupsOf planned).length
            from List.length_map _] at hlt
        obtain ⟨l', hl', -, hstrokes⟩ := lane_over hfl hover (List.getElem?_eq_getElem hlt)
        cases Option.some.inj (hl.symm.trans hl')
        exact hstrokes.symm
      · rw [hflatten]
        exact strokesOn_collect hids hsubjects id
    · cases hb

/-- So it is for each report of a batch. -/
theorem strokesOn_report (h : ex.batchBy planned s order = some b)
    (hids : (planned.map (·.delta.id)).Nodup) {r : DeltaReport} (hr : r ∈ b.ran.value) :
    strokesOn r.id b.strokes = r.reports.map (Stroke.mk r.id) := by
  rw [strokesOn_batchBy h hids]
  refine strokesOn_of_mem ?_ hr
  rwa [ids_eq_of_subjects (done_batchBy h).subject_eq]

end Executor

end Converge
