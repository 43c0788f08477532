import Mathlib.Logic.Relation
import Converge.Proofs.Executor.Reports

/-!
# Groups are the connected rows

`Groups` says that rows with a common resource are in one tree. Here is the other half: nothing else
puts rows into one tree, although a resource remembers only the first row that touched it.

* `Within R uses p`: every tree of `p` is within the equivalence `R`, and whoever owns a resource
  uses it. `Within.touch` is one touch: the two rows that it puts together share the resource, so `R`
  holds of them and of the two trees;
* **`rootOf_eq_iff`**: two rows have one root exactly if a chain of shared resources leads from one
  to the other;
* `head_group`: a group begins with its root, so the order of the map is the order of first rows;
* **`groups_are_components`**: all of it for the rows of a batch.
-/

namespace Converge.Grouping

/-! ## 1. Trees within an equivalence -/

section Within

variable {n : Nat}

/-- Every tree is within `R`, and the owner of a resource uses it. -/
structure Within (R : Fin n → Fin n → Prop) (uses : Fin n → List String) (p : Progress n) :
    Prop where
  root : ∀ i, R (p.forest.root i) i
  owner : ∀ r j, p.owner.get? r = some j → r ∈ uses j

variable {R : Fin n → Fin n → Prop} {uses : Fin n → List String}

theorem Within.begin (hR : Equivalence R) : Within R uses ⟨.singletons n, .empty⟩ where
  root i := by
    rw [Forest.root_singletons]
    exact hR.refl i
  owner _ _ h := by cases h

/-- **A touch puts only rows together that share the resource.** -/
theorem Within.touch (hR : Equivalence R)
    (hshare : ∀ i j r, r ∈ uses i → r ∈ uses j → R i j) {p : Progress n} (h : Within R uses p)
    {i : Fin n} {r : String} (hr : r ∈ uses i) : Within R uses (Grouping.touch i p r) := by
  unfold Grouping.touch
  cases ho : p.owner.get? r with
  | some j =>
    have hij : R i j := hshare i j r hr (h.owner r j ho)
    have hroots : R (p.forest.root i) (p.forest.root j) :=
      hR.trans (h.root i) (hR.trans hij (hR.symm (h.root j)))
    obtain ⟨lo, hi, hcase, hunion⟩ := p.forest.root_union i j
    have hlink : R lo hi := by
      rcases hcase with ⟨rfl, rfl⟩ | ⟨rfl, rfl⟩
      · exact hroots
      · exact hR.symm hroots
    refine ⟨fun k => ?_, h.owner⟩
    show R ((p.forest.union i j i.isLt j.isLt).root k) k
    rw [hunion]
    by_cases hk : p.forest.root k = hi
    · rw [if_pos hk]
      have hself : R hi k := hk ▸ h.root k
      exact hR.trans hlink hself
    · rw [if_neg hk]
      exact h.root k
  | none =>
    refine ⟨h.root, fun q j hq => ?_⟩
    have hq : (p.owner.insert r i).get? q = some j := hq
    rw [SortedMap.get?_insert] at hq
    by_cases hqr : q = r
    · rw [if_pos hqr] at hq
      cases hq
      exact hqr ▸ hr
    · rw [if_neg hqr] at hq
      exact h.owner q j hq

theorem Within.touchRows (hR : Equivalence R)
    (hshare : ∀ i j r, r ∈ uses i → r ∈ uses j → R i j) (rows : List (Fin n)) {p : Progress n}
    (h : Within R uses p) :
    Within R uses (rows.foldl (fun p i => (uses i).foldl (Grouping.touch i) p) p) := by
  refine List.foldlRecOn rows _ h fun p hp i _ => ?_
  exact List.foldlRecOn (uses i) _ hp fun q hq r hr => hq.touch hR hshare hr

end Within

/-! ## 2. Chains of shared resources -/

variable {resources : List (List String)}

/-- Two rows have a common resource. -/
def Share (resources : List (List String)) (i j : Fin resources.length) : Prop :=
  ∃ r, r ∈ resources.get i ∧ r ∈ resources.get j

/-- A chain of rows leads from one to the other in which neighbours have a common resource. -/
def Chained (resources : List (List String)) : Fin resources.length → Fin resources.length → Prop :=
  Relation.ReflTransGen (Share resources)

theorem chained_equivalence (resources : List (List String)) : Equivalence (Chained resources) where
  refl _ := .refl
  symm h := by
    have hshare : Std.Symm (Share resources) := ⟨fun _ _ ⟨r, hi, hj⟩ => ⟨r, hj, hi⟩⟩
    exact Relation.ReflTransGen.stdSymm.symm _ _ h
  trans h h' := Relation.ReflTransGen.trans h h'

/-- **Rows have one root exactly if they are chained.** -/
theorem rootOf_eq_iff {i j : Fin resources.length} :
    rootOf resources i = rootOf resources j ↔ Chained resources i j := by
  have hR := chained_equivalence resources
  constructor
  · intro heq
    have hshare : ∀ (i j : Fin resources.length) (r : String),
        r ∈ resources.get i → r ∈ resources.get j → Chained resources i j :=
      fun i j r hi hj => .single ⟨r, hi, hj⟩
    have hwithin : Within (Chained resources) (fun k => resources.get k) (link resources) :=
      Within.touchRows hR hshare (List.finRange resources.length) (.begin hR)
    have hj : Chained resources (rootOf resources i) j := heq ▸ hwithin.root j
    exact hR.trans (hR.symm (hwithin.root i)) hj
  · intro hchain
    induction hchain with
    | refl => rfl
    | tail _ hshare ih =>
      obtain ⟨r, hj, hk⟩ := hshare
      exact ih.trans (rootOf_eq_of_share hj hk)

/-- A row without resources is chained to no other row. -/
theorem eq_of_chained_of_nil {i j : Fin resources.length} (hnil : resources.get i = [])
    (h : Chained resources i j) : j = i := by
  induction h with
  | refl => rfl
  | tail _ hshare ih =>
    obtain ⟨r, hr, -⟩ := hshare
    rw [ih, hnil] at hr
    exact absurd hr List.not_mem_nil

/-! ## 3. The first row of a group -/

theorem rootOf_rootOf (i : Fin resources.length) :
    rootOf resources (rootOf resources i) = rootOf resources i :=
  Forest.root_of_up_eq (Forest.up_root _ i)

/-- A group begins with the root of its tree. -/
theorem head_groupOf (i : Fin resources.length) :
    (groupOf resources i).head? = some (rootOf resources i).val := by
  have hroot : (rootOf resources i).val ∈ groupOf resources i :=
    mem_groupOf.mpr ⟨(rootOf resources i).isLt, rootOf_rootOf i⟩
  have hsorted : (groupOf resources i).Pairwise (· < ·) :=
    group_sorted (mem_groupByResource.mpr ⟨i, rfl⟩)
  have hleast : ∀ k ∈ groupOf resources i, (rootOf resources i).val ≤ k := fun k hk => by
    obtain ⟨hlt, heq⟩ := mem_groupOf.mp hk
    rw [← heq]
    exact Forest.root_le _ ⟨k, hlt⟩
  generalize groupOf resources i = g at hroot hsorted hleast
  cases g with
  | nil => exact absurd hroot List.not_mem_nil
  | cons a rest =>
    have hle : (rootOf resources i).val ≤ a := hleast a List.mem_cons_self
    rcases List.mem_cons.mp hroot with heq | hrest
    · rw [heq]
      rfl
    · have hlt := (List.pairwise_cons.mp hsorted).1 _ hrest
      omega

theorem head_group {e : Nat × List Nat} (he : e ∈ (groupMap resources).entries) :
    e.2.head? = some e.1 := by
  obtain ⟨hne, hrows⟩ := entry_groupMap he
  obtain ⟨k, hk⟩ := List.exists_mem_of_ne_nil e.2 hne
  obtain ⟨i, -, hroot, hgroup⟩ := hrows k hk
  rw [hgroup, head_groupOf, hroot]

/-- The groups stand in the order of their first rows. -/
theorem groups_ordered (resources : List (List String)) :
    (groupByResource resources).Pairwise fun g h =>
      ∃ i j, g.head? = some i ∧ h.head? = some j ∧ i < j := by
  rw [groupByResource_eq, List.pairwise_map]
  refine (groupMap resources).sorted.imp_of_mem fun {a b} ha hb hlt => ?_
  exact ⟨a.1, b.1, head_group ha, head_group hb, Nat.compare_eq_lt.mp hlt⟩

theorem group_ne_nil {g : List Nat} (hg : g ∈ groupByResource resources) : g ≠ [] := by
  obtain ⟨i, rfl⟩ := mem_groupByResource.mp hg
  exact List.ne_nil_of_mem (mem_groupOf_self i)

/-- A row without resources is a group of its own. -/
theorem groupOf_of_nil {i : Fin resources.length} (hnil : resources.get i = []) :
    groupOf resources i = [i.val] := by
  have honly : ∀ k ∈ groupOf resources i, k = i.val := fun k hk => by
    obtain ⟨hlt, heq⟩ := mem_groupOf.mp hk
    have hchain : Chained resources i ⟨k, hlt⟩ := rootOf_eq_iff.mp heq.symm
    exact congrArg Fin.val (eq_of_chained_of_nil hnil hchain)
  have hnodup : (groupOf resources i).Nodup :=
    (group_sorted (mem_groupByResource.mpr ⟨i, rfl⟩)).imp Nat.ne_of_lt
  have hperm : (groupOf resources i).Perm [i.val] := by
    refine (List.perm_ext_iff_of_nodup hnodup (List.nodup_singleton _)).mpr fun k => ?_
    rw [List.mem_singleton]
    exact ⟨honly k, fun hk => hk ▸ mem_groupOf_self i⟩
  exact List.perm_singleton.mp hperm

/-! ## 4. The groups of a batch -/

open Executor (resourcesOf)

/-- Two rows of a batch, given by their places, have actions on a common resource. -/
def Touching (planned : List PlannedDelta) (i j : Nat) : Prop :=
  ∃ p q, planned[i]? = some p ∧ planned[j]? = some q ∧
    ∃ a ∈ p.actions, ∃ b ∈ q.actions, a.resource = b.resource

/-- What groups of the places of a batch are to be. -/
structure Components (planned : List PlannedDelta) (groups : List (List Nat)) : Prop where
  /-- Every place is in one group, once, and nothing else is in a group. -/
  once : groups.flatten.Perm (List.range planned.length)
  nonempty : ∀ g ∈ groups, g ≠ []
  ascending : ∀ g ∈ groups, g.Pairwise (· < ·)
  /-- The groups stand in the order of their first places. -/
  ordered : groups.Pairwise fun g h => ∃ i j, g.head? = some i ∧ h.head? = some j ∧ i < j
  /-- Two places are in one group exactly if a chain of rows leads from one to the other in which
      neighbours have actions on a common resource. -/
  connected : ∀ i j, i < planned.length → j < planned.length →
    ((∃ g ∈ groups, i ∈ g ∧ j ∈ g) ↔ Relation.ReflTransGen (Touching planned) i j)
  /-- A row without actions is a group of its own. -/
  alone : ∀ i p, planned[i]? = some p → p.actions = [] → [i] ∈ groups

section Batch

variable {planned : List PlannedDelta}

theorem length_resourcesOf_eq : (resourcesOf planned).length = planned.length := List.length_map _

theorem get_resourcesOf {i : Fin (resourcesOf planned).length} {p : PlannedDelta}
    (hp : planned[i.val]? = some p) :
    (resourcesOf planned).get i = p.actions.map Action.resource := by
  obtain ⟨hlt, rfl⟩ := List.getElem?_eq_some_iff.mp hp
  exact List.getElem_map _

theorem exists_planned (i : Fin (resourcesOf planned).length) : ∃ p, planned[i.val]? = some p :=
  ⟨_, List.getElem?_eq_getElem (length_resourcesOf_eq ▸ i.isLt)⟩

/-- Rows have a common resource exactly if their actions do. -/
theorem share_resourcesOf_iff {i j : Fin (resourcesOf planned).length} :
    Share (resourcesOf planned) i j ↔ Touching planned i j := by
  obtain ⟨p, hp⟩ := exists_planned i
  obtain ⟨q, hq⟩ := exists_planned j
  unfold Share Touching
  rw [get_resourcesOf hp, get_resourcesOf hq]
  constructor
  · rintro ⟨r, hr, hr'⟩
    obtain ⟨a, ha, rfl⟩ := List.mem_map.mp hr
    obtain ⟨b, hb, hab⟩ := List.mem_map.mp hr'
    exact ⟨p, q, hp, hq, a, ha, b, hb, hab.symm⟩
  · rintro ⟨p', q', hp', hq', a, ha, b, hb, hab⟩
    obtain rfl : p = p' := Option.some.inj (hp.symm.trans hp')
    obtain rfl : q = q' := Option.some.inj (hq.symm.trans hq')
    refine ⟨a.resource, List.mem_map_of_mem ha, ?_⟩
    rw [hab]
    exact List.mem_map_of_mem hb

/-- A chain of rows that touch each other does not leave the batch. -/
theorem chained_resourcesOf_iff {i j : Fin (resourcesOf planned).length} :
    Chained (resourcesOf planned) i j ↔ Relation.ReflTransGen (Touching planned) i j := by
  constructor
  · intro h
    exact Relation.ReflTransGen.lift Fin.val (fun _ _ hshare => share_resourcesOf_iff.mp hshare) _ _ h
  · have hstay : ∀ k, Relation.ReflTransGen (Touching planned) i k →
        ∃ h : k < (resourcesOf planned).length, Chained (resourcesOf planned) i ⟨k, h⟩ := by
      intro k hk
      induction hk with
      | refl => exact ⟨i.isLt, .refl⟩
      | @tail k l _ htouch ih =>
        obtain ⟨hlt, hchain⟩ := ih
        obtain ⟨p, q, hp, hq, hcommon⟩ := id htouch
        have hl : l < (resourcesOf planned).length := by
          rw [length_resourcesOf_eq]
          exact (List.getElem?_eq_some_iff.mp hq).1
        exact ⟨hl, hchain.tail (share_resourcesOf_iff (i := ⟨k, hlt⟩) (j := ⟨l, hl⟩).mpr htouch)⟩
    intro h
    exact (hstay j h).2

theorem same_group_iff {i j : Nat} (hi : i < planned.length) (hj : j < planned.length) :
    (∃ g ∈ groupByResource (resourcesOf planned), i ∈ g ∧ j ∈ g) ↔
      Relation.ReflTransGen (Touching planned) i j := by
  have hi : i < (resourcesOf planned).length := length_resourcesOf_eq ▸ hi
  have hj : j < (resourcesOf planned).length := length_resourcesOf_eq ▸ hj
  rw [← chained_resourcesOf_iff (i := ⟨i, hi⟩) (j := ⟨j, hj⟩), ← rootOf_eq_iff]
  constructor
  · rintro ⟨g, hg, hig, hjg⟩
    obtain ⟨k, rfl⟩ := mem_groupByResource.mp hg
    obtain ⟨_, hroot⟩ := mem_groupOf.mp hig
    obtain ⟨_, hroot'⟩ := mem_groupOf.mp hjg
    exact hroot.trans hroot'.symm
  · intro heq
    refine ⟨groupOf (resourcesOf planned) ⟨i, hi⟩, mem_groupByResource.mpr ⟨_, rfl⟩, ?_, ?_⟩
    · exact mem_groupOf_self ⟨i, hi⟩
    · exact mem_groupOf.mpr ⟨hj, heq.symm⟩

end Batch

/-- **The groups of a batch are its connected rows**, each in order and in the order of their first
    rows, for every batch. -/
theorem groups_are_components (planned : List PlannedDelta) :
    Components planned (groupByResource (resourcesOf planned)) where
  once := by
    have h := flatten_groups_perm (resourcesOf planned)
    rwa [length_resourcesOf_eq] at h
  nonempty _ hg := group_ne_nil hg
  ascending _ hg := group_sorted hg
  ordered := groups_ordered _
  connected _ _ hi hj := same_group_iff hi hj
  alone i p hp hnone := by
    have hi : i < (resourcesOf planned).length := by
      rw [length_resourcesOf_eq]
      exact (List.getElem?_eq_some_iff.mp hp).1
    have hnil : (resourcesOf planned).get ⟨i, hi⟩ = [] := by
      rw [get_resourcesOf (i := ⟨i, hi⟩) hp, hnone]
      rfl
    exact mem_groupByResource.mpr ⟨⟨i, hi⟩, (groupOf_of_nil hnil).symm⟩

end Converge.Grouping
