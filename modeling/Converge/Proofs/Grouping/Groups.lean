import Mathlib.Data.List.Nodup
import Mathlib.Data.List.FinRange
import Converge.Proofs.Grouping.Forest

/-!
# The groups of rows that share resources

* `Linked` says what the owners of resources are for: whoever touched a resource is in one tree with
  its owner. `Linked.touch` is one touch, `linked_link` the whole list;
* `Placed` says what stands in the map of groups while the rows are placed one by one;
* **`mem_groupByResource`**: the groups are the trees, each as the list of its rows in order;
* `share_group`, `groups_disjoint`, `exists_group`: rows with a common resource are in one group, no
  row is in two groups, and every row is in one.
-/

namespace Converge.Grouping

/-! ## 1. Linking rows -/

section Linking

variable {n : Nat}

/-- Whoever touched a resource is in one tree with its owner. -/
def Linked (touched : Fin n → String → Prop) (p : Progress n) : Prop :=
  ∀ i r, touched i r → ∃ j, p.owner.get? r = some j ∧ p.forest.root i = p.forest.root j

theorem Linked.touch {touched : Fin n → String → Prop} {p : Progress n} (h : Linked touched p)
    (i : Fin n) (r : String) :
    Linked (fun k q => touched k q ∨ (k = i ∧ q = r)) (touch i p r) := by
  intro k q hkq
  unfold Grouping.touch
  -- owners stay owners, and trees only grow together
  cases ho : p.owner.get? r with
  | some j =>
    simp only [Forest.root_union_eq_iff]
    rcases hkq with hkq | ⟨rfl, rfl⟩
    · obtain ⟨o, hown, hroot⟩ := h k q hkq
      exact ⟨o, hown, .inl hroot⟩
    · exact ⟨j, ho, .inr (.inl ⟨rfl, rfl⟩)⟩
  | none =>
    simp only [SortedMap.get?_insert]
    rcases hkq with hkq | ⟨rfl, rfl⟩
    · obtain ⟨o, hown, hroot⟩ := h k q hkq
      have hne : q ≠ r := fun he => by rw [he, ho] at hown; cases hown
      exact ⟨o, by rw [if_neg hne, hown], hroot⟩
    · exact ⟨k, if_pos rfl, rfl⟩

theorem Linked.touchAll (i : Fin n) : ∀ {resources : List String} {touched : Fin n → String → Prop}
    {p : Progress n}, Linked touched p →
      Linked (fun k q => touched k q ∨ (k = i ∧ q ∈ resources))
        (resources.foldl (Grouping.touch i) p)
  | [], _, _, h => fun k q hkq => h k q (hkq.resolve_right fun ⟨_, hq⟩ => List.not_mem_nil hq)
  | r :: rest, touched, p, h => fun k q hkq => by
    refine Linked.touchAll i (h.touch i r) k q ?_
    rcases hkq with hkq | ⟨hk, hq⟩
    · exact .inl (.inl hkq)
    · rcases List.mem_cons.mp hq with rfl | hq
      · exact .inl (.inr ⟨hk, rfl⟩)
      · exact .inr ⟨hk, hq⟩

theorem Linked.touchRows (resources : Fin n → List String) : ∀ {rows : List (Fin n)}
    {touched : Fin n → String → Prop} {p : Progress n}, Linked touched p →
      Linked (fun k q => touched k q ∨ (k ∈ rows ∧ q ∈ resources k))
        (rows.foldl (fun p i => (resources i).foldl (Grouping.touch i) p) p)
  | [], _, _, h => fun k q hkq => h k q (hkq.resolve_right fun ⟨hk, _⟩ => List.not_mem_nil hk)
  | i :: rest, touched, p, h => fun k q hkq => by
    refine Linked.touchRows resources (h.touchAll i) k q ?_
    rcases hkq with hkq | ⟨hk, hq⟩
    · exact .inl (.inl hkq)
    · rcases List.mem_cons.mp hk with rfl | hk
      · exact .inl (.inr ⟨rfl, hq⟩)
      · exact .inr ⟨hk, hq⟩

end Linking

variable {resources : List (List String)}

/-- The root of a row after all resources were touched. -/
def rootOf (resources : List (List String)) (i : Fin resources.length) : Fin resources.length :=
  (link resources).forest.root i

/-- **Rows with a common resource are in one tree.** -/
theorem rootOf_eq_of_share {i j : Fin resources.length} {r : String}
    (hi : r ∈ resources.get i) (hj : r ∈ resources.get j) :
    rootOf resources i = rootOf resources j := by
  have hlinked : Linked
      (fun k q => False ∨ (k ∈ List.finRange resources.length ∧ q ∈ resources.get k))
      (link resources) :=
    Linked.touchRows (fun k => resources.get k) (fun _ _ hf => hf.elim)
  obtain ⟨o, ho, hroot⟩ := hlinked i r (.inr ⟨List.mem_finRange i, hi⟩)
  obtain ⟨o', ho', hroot'⟩ := hlinked j r (.inr ⟨List.mem_finRange j, hj⟩)
  rw [ho] at ho'
  cases ho'
  exact hroot.trans hroot'.symm

/-! ## 2. Placing rows -/

/-- The rows of a list that have the given root, in order. -/
def under {n : Nat} (f : Forest n) (rows : List (Fin n)) (r : Nat) : List Nat :=
  (rows.filter fun k => (f.root k).val = r).map Fin.val

theorem under_append {n : Nat} (f : Forest n) (rows : List (Fin n)) (i : Fin n) (r : Nat) :
    under f (rows ++ [i]) r = under f rows r ++ if (f.root i).val = r then [i.val] else [] := by
  unfold under
  rw [List.filter_append, List.map_append]
  by_cases h : (f.root i).val = r <;> simp [h]

/-- The map of groups after some rows were placed; the walks on the way have moved no root. -/
structure Placed {n : Nat} (f : Forest n) (rows : List (Fin n))
    (acc : Forest n × SortedMap Nat (List Nat)) : Prop where
  root_eq : ∀ k, acc.1.root k = f.root k
  group_eq : ∀ r, (acc.2.get? r).getD [] = under f rows r
  nonempty : ∀ r g, acc.2.get? r = some g → g ≠ []

namespace Placed

variable {n : Nat} {f : Forest n} {rows : List (Fin n)}

theorem nil (f : Forest n) : Placed f [] (f, .empty) := ⟨fun _ => rfl, fun _ => rfl, nofun⟩

theorem place {acc : Forest n × SortedMap Nat (List Nat)} (h : Placed f rows acc) (i : Fin n) :
    Placed f (rows ++ [i]) (place acc i) where
  root_eq k := (acc.1.root_find i k).trans (h.root_eq k)
  group_eq r := by
    have hr : (acc.1.find i i.isLt).2.val = (f.root i).val := by rw [Forest.find_eq, h.root_eq]
    unfold Grouping.place
    rw [SortedMap.get?_insert, hr, under_append, ← h.group_eq r]
    by_cases heq : r = (f.root i).val
    · rw [if_pos heq, if_pos heq.symm, heq]
      rfl
    · rw [if_neg heq, if_neg (Ne.symm heq), List.append_nil]
  nonempty r g hg := by
    unfold Grouping.place at hg
    rw [SortedMap.get?_insert] at hg
    split at hg
    · cases hg
      exact List.append_ne_nil_of_right_ne_nil _ (List.cons_ne_nil _ _)
    · exact h.nonempty r g hg

theorem placeAll : ∀ {later rows : List (Fin n)} {acc : Forest n × SortedMap Nat (List Nat)},
    Placed f rows acc → Placed f (rows ++ later) (later.foldl Grouping.place acc)
  | [], rows, _, h => by rwa [List.append_nil]
  | i :: later, rows, _, h => by
    rw [List.append_cons]
    exact placeAll (h.place i)

end Placed

/-! ## 3. The groups -/

/-- The rows of the tree of a row, in order. -/
def groupOf (resources : List (List String)) (i : Fin resources.length) : List Nat :=
  under (link resources).forest (List.finRange resources.length) (rootOf resources i).val

theorem mem_groupOf {i : Fin resources.length} {k : Nat} :
    k ∈ groupOf resources i ↔
      ∃ h : k < resources.length, rootOf resources ⟨k, h⟩ = rootOf resources i := by
  unfold groupOf under
  simp only [List.mem_map, List.mem_filter, List.mem_finRange, decide_eq_true_eq, true_and]
  constructor
  · rintro ⟨j, hj, rfl⟩
    exact ⟨j.isLt, Fin.ext hj⟩
  · rintro ⟨h, hr⟩
    exact ⟨⟨k, h⟩, congrArg Fin.val hr, rfl⟩

theorem mem_groupOf_self (i : Fin resources.length) : i.val ∈ groupOf resources i :=
  mem_groupOf.mpr ⟨i.isLt, rfl⟩

/-- The map of groups when every row is placed. -/
def groupMap (resources : List (List String)) : SortedMap Nat (List Nat) :=
  ((List.finRange resources.length).foldl place ((link resources).forest, .empty)).2

theorem groupByResource_eq (resources : List (List String)) :
    groupByResource resources = (groupMap resources).entries.map (·.2) := rfl

theorem placed_all (resources : List (List String)) :
    Placed (link resources).forest (List.finRange resources.length)
      ((List.finRange resources.length).foldl place ((link resources).forest, .empty)) := by
  have h : Placed (link resources).forest ([] ++ List.finRange resources.length) _ :=
    (Placed.nil (link resources).forest).placeAll
  rwa [List.nil_append] at h

theorem getD_groupMap (i : Fin resources.length) :
    ((groupMap resources).get? (rootOf resources i).val).getD [] = groupOf resources i :=
  (placed_all resources).group_eq _

/-- An entry of the map is a root with the rows under it. -/
theorem entry_groupMap {e : Nat × List Nat} (he : e ∈ (groupMap resources).entries) :
    e.2 ≠ [] ∧ ∀ k ∈ e.2, ∃ i : Fin resources.length,
      i.val = k ∧ (rootOf resources i).val = e.1 ∧ e.2 = groupOf resources i := by
  have h := placed_all resources
  have hget := (SortedMap.get?_eq_some_iff _ e.1 e.2).mpr he
  have hunder : e.2 = under (link resources).forest (List.finRange resources.length) e.1 := by
    rw [← h.group_eq e.1]
    exact congrArg (Option.getD · []) hget.symm
  refine ⟨h.nonempty e.1 e.2 hget, fun k hk => ?_⟩
  rw [hunder, under, List.mem_map] at hk
  obtain ⟨i, hi, hik⟩ := hk
  rw [List.mem_filter, decide_eq_true_eq] at hi
  refine ⟨i, hik, hi.2, ?_⟩
  rw [hunder, ← hi.2]
  rfl

/-- **The groups are the trees, each as the list of its rows in order.** -/
theorem mem_groupByResource {g : List Nat} :
    g ∈ groupByResource resources ↔ ∃ i, g = groupOf resources i := by
  rw [groupByResource_eq, List.mem_map]
  constructor
  · rintro ⟨e, he, rfl⟩
    obtain ⟨hne, hrows⟩ := entry_groupMap he
    obtain ⟨k, hk⟩ := List.exists_mem_of_ne_nil e.2 hne
    obtain ⟨i, -, -, hg⟩ := hrows k hk
    exact ⟨i, hg⟩
  · rintro ⟨i, rfl⟩
    have hself := mem_groupOf_self i
    rw [← getD_groupMap i] at hself ⊢
    cases hget : (groupMap resources).get? (rootOf resources i).val with
    | none =>
      rw [hget] at hself
      exact absurd hself List.not_mem_nil
    | some g => exact ⟨(_, g), (SortedMap.get?_eq_some_iff _ _ _).mp hget, rfl⟩

/-- Rows with a common resource are in one group. -/
theorem share_group {g : List Nat} (hg : g ∈ groupByResource resources)
    {i j : Fin resources.length} {r : String} (hi : r ∈ resources.get i) (hj : r ∈ resources.get j)
    (h : i.val ∈ g) : j.val ∈ g := by
  obtain ⟨k, rfl⟩ := mem_groupByResource.mp hg
  obtain ⟨_, hroot⟩ := mem_groupOf.mp h
  exact mem_groupOf.mpr ⟨j.isLt, (rootOf_eq_of_share hj hi).trans hroot⟩

/-- Every row is in a group. -/
theorem exists_group (i : Fin resources.length) : ∃ g ∈ groupByResource resources, i.val ∈ g :=
  ⟨_, mem_groupByResource.mpr ⟨i, rfl⟩, mem_groupOf_self i⟩

theorem lt_of_mem_group {g : List Nat} (hg : g ∈ groupByResource resources) {k : Nat}
    (hk : k ∈ g) : k < resources.length := by
  obtain ⟨i, rfl⟩ := mem_groupByResource.mp hg
  exact (mem_groupOf.mp hk).1

/-- A group lists its rows in order. -/
theorem group_sorted {g : List Nat} (hg : g ∈ groupByResource resources) :
    g.Pairwise (· < ·) := by
  obtain ⟨i, rfl⟩ := mem_groupByResource.mp hg
  exact (((List.pairwise_lt_finRange _).filter _).map _ fun _ _ h => h)

/-- No row is in two groups. -/
theorem groups_disjoint (resources : List (List String)) :
    (groupByResource resources).Pairwise List.Disjoint := by
  rw [groupByResource_eq, List.pairwise_map]
  refine (groupMap resources).sorted.imp_of_mem fun {a b} ha hb hlt k hka hkb => ?_
  obtain ⟨i, rfl, hi, -⟩ := (entry_groupMap ha).2 k hka
  obtain ⟨j, hj, hrj, -⟩ := (entry_groupMap hb).2 i hkb
  rw [Fin.ext hj, hi] at hrj
  exact Nat.ne_of_lt (Nat.compare_eq_lt.mp hlt) hrj

theorem eq_of_mem_groups {i j k : Nat} {g g' : List Nat}
    (hg : (groupByResource resources)[i]? = some g)
    (hg' : (groupByResource resources)[j]? = some g') (hk : k ∈ g) (hk' : k ∈ g') : i = j := by
  obtain ⟨hi, rfl⟩ := List.getElem?_eq_some_iff.mp hg
  obtain ⟨hj, rfl⟩ := List.getElem?_eq_some_iff.mp hg'
  have h := List.pairwise_iff_getElem.mp (groups_disjoint resources)
  rcases Nat.lt_trichotomy i j with hlt | rfl | hlt
  · exact absurd hk' (h i j hi hj hlt hk)
  · rfl
  · exact absurd hk (h j i hj hi hlt hk')

/-- **The groups together hold every row once.** -/
theorem flatten_groups_perm (resources : List (List String)) :
    (groupByResource resources).flatten.Perm (List.range resources.length) := by
  have hnodup : (groupByResource resources).flatten.Nodup :=
    List.nodup_flatten.mpr ⟨fun g hg => (group_sorted hg).imp Nat.ne_of_lt,
      groups_disjoint resources⟩
  refine (List.perm_ext_iff_of_nodup hnodup List.nodup_range).mpr fun k => ?_
  rw [List.mem_flatten, List.mem_range]
  constructor
  · rintro ⟨g, hg, hk⟩
    exact lt_of_mem_group hg hk
  · intro hk
    exact exists_group ⟨k, hk⟩

/-! ## 4. The rows of one group among others -/

theorem filter_range_group {g : List Nat} (hg : g ∈ groupByResource resources) :
    (List.range resources.length).filter (· ∈ g) = g := by
  have hsorted := group_sorted hg
  have hnodup : g.Nodup := hsorted.imp Nat.ne_of_lt
  have hperm : ((List.range resources.length).filter (· ∈ g)).Perm g := by
    refine (List.perm_ext_iff_of_nodup (List.nodup_range.filter _) hnodup).mpr fun k => ?_
    rw [List.mem_filter, List.mem_range, decide_eq_true_eq]
    exact ⟨fun h => h.2, fun h => ⟨lt_of_mem_group hg h, h⟩⟩
  exact hperm.eq_of_pairwise (fun _ _ _ _ hab hba => absurd hab (Nat.lt_asymm hba))
    (List.pairwise_lt_range.filter _) hsorted

theorem filter_flatten_of_mem {g : List Nat} : ∀ {groups : List (List Nat)},
    groups.Pairwise List.Disjoint → g ∈ groups → groups.flatten.filter (· ∈ g) = g
  | h :: rest, hd, hg => by
    obtain ⟨hhead, hrest⟩ := List.pairwise_cons.mp hd
    rw [List.flatten_cons, List.filter_append]
    rcases List.mem_cons.mp hg with rfl | hg
    · have hself : g.filter (· ∈ g) = g :=
        List.filter_eq_self.mpr fun k hk => decide_eq_true hk
      have hothers : rest.flatten.filter (· ∈ g) = [] := by
        refine List.filter_eq_nil_iff.mpr fun k hk hmem => ?_
        obtain ⟨g', hg', hk⟩ := List.mem_flatten.mp hk
        exact hhead g' hg' (of_decide_eq_true hmem) hk
      rw [hself, hothers, List.append_nil]
    · have hother : h.filter (· ∈ g) = [] :=
        List.filter_eq_nil_iff.mpr fun k hk hmem => hhead g hg hk (of_decide_eq_true hmem)
      rw [hother, List.nil_append]
      exact filter_flatten_of_mem hrest hg

theorem filter_flatten_group {g : List Nat} (hg : g ∈ groupByResource resources) :
    (groupByResource resources).flatten.filter (· ∈ g) = g :=
  filter_flatten_of_mem (groups_disjoint resources) hg

end Converge.Grouping
