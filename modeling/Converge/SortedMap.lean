/-!
# Maps with sorted keys

A finite map is the list of its entries in strictly ascending order of keys, so two maps with the
same entries are equal and a walk over a map meets the keys in order.

* `get?`, `insert`, `erase` are the operations; `ofList` inserts in order, so the last entry of a
  key stays;
* **`ext_get?`**: maps that answer every question alike are equal;
* **`get?_insert`**, **`get?_erase`**: what an operation does, told through `get?`;
* `entries_ofList_perm`, `entries_ofList_of_perm`: what the entries of a list of entries are.
-/

set_option linter.unusedSectionVars false

namespace Converge

/-- Entries in strictly ascending order of keys. -/
structure SortedMap (κ ν : Type) [Ord κ] where
  entries : List (κ × ν)
  sorted : entries.Pairwise fun a b => compare a.1 b.1 = .lt

namespace SortedMap

variable {κ ν : Type} [Ord κ]

/-! ## 1. Entries -/

/-- The value at a key. -/
def lookup (k : κ) : List (κ × ν) → Option ν
  | [] => none
  | (k', v) :: rest => if compare k k' = .eq then some v else lookup k rest

/-- The entries with one more, which takes the place of an entry of the same key. -/
def insertEntry (k : κ) (v : ν) : List (κ × ν) → List (κ × ν)
  | [] => [(k, v)]
  | (k', v') :: rest =>
    match compare k k' with
    | .lt => (k, v) :: (k', v') :: rest
    | .eq => (k, v) :: rest
    | .gt => (k', v') :: insertEntry k v rest

theorem mem_insertEntry {k : κ} {v : ν} {e : κ × ν} :
    ∀ {l : List (κ × ν)}, e ∈ insertEntry k v l → e = (k, v) ∨ e ∈ l
  | [], h => by simpa [insertEntry] using h
  | (k', v') :: rest, h => by
    unfold insertEntry at h
    split at h
    · simpa using h
    · rcases List.mem_cons.mp h with h | h
      · exact .inl h
      · exact .inr (List.mem_cons_of_mem _ h)
    · rcases List.mem_cons.mp h with h | h
      · exact .inr (h ▸ List.mem_cons_self)
      · rcases mem_insertEntry h with h | h
        · exact .inl h
        · exact .inr (List.mem_cons_of_mem _ h)

variable [Std.TransOrd κ]

theorem lt_of_gt {a b : κ} (h : compare a b = .gt) : compare b a = .lt :=
  Std.OrientedCmp.lt_of_gt h

theorem pairwise_insertEntry (k : κ) (v : ν) :
    ∀ {l : List (κ × ν)}, (l.Pairwise fun a b => compare a.1 b.1 = .lt) →
      (insertEntry k v l).Pairwise fun a b => compare a.1 b.1 = .lt
  | [], _ => by simp [insertEntry]
  | (k', v') :: rest, h => by
    obtain ⟨hhead, hrest⟩ := List.pairwise_cons.mp h
    unfold insertEntry
    split
    · rename_i hc
      refine List.pairwise_cons.mpr ⟨fun e he => ?_, h⟩
      rcases List.mem_cons.mp he with rfl | he
      · exact hc
      · exact Std.TransCmp.lt_trans hc (hhead e he)
    · rename_i hc
      exact List.pairwise_cons.mpr
        ⟨fun e he => Std.TransCmp.lt_of_eq_of_lt hc (hhead e he), hrest⟩
    · rename_i hc
      refine List.pairwise_cons.mpr ⟨fun e he => ?_, pairwise_insertEntry k v hrest⟩
      rcases mem_insertEntry he with rfl | he
      · exact lt_of_gt hc
      · exact hhead e he

/-! ## 2. The operations -/

/-- The map without entries. -/
def empty : SortedMap κ ν := ⟨[], .nil⟩

instance : EmptyCollection (SortedMap κ ν) := ⟨empty⟩
instance : Inhabited (SortedMap κ ν) := ⟨empty⟩

/-- The value at a key. -/
def get? (m : SortedMap κ ν) (k : κ) : Option ν := lookup k m.entries

/-- The map has a value at the key. -/
def contains (m : SortedMap κ ν) (k : κ) : Bool := (m.get? k).isSome

/-- The map with the value `v` at `k`. -/
def insert (m : SortedMap κ ν) (k : κ) (v : ν) : SortedMap κ ν :=
  ⟨insertEntry k v m.entries, pairwise_insertEntry k v m.sorted⟩

/-- The map without a value at `k`. -/
def erase (m : SortedMap κ ν) (k : κ) : SortedMap κ ν :=
  ⟨m.entries.filter fun e => compare k e.1 != .eq, m.sorted.filter _⟩

/-- The keys in ascending order. -/
def keys (m : SortedMap κ ν) : List κ := m.entries.map (·.1)

/-- The number of entries. -/
def size (m : SortedMap κ ν) : Nat := m.entries.length

/-- The map has no entry. -/
def isEmpty (m : SortedMap κ ν) : Bool := m.entries.isEmpty

/-- The entries of a list; of several with one key the last. -/
def ofList (l : List (κ × ν)) : SortedMap κ ν := l.foldl (fun m (k, v) => m.insert k v) empty

instance [DecidableEq κ] [DecidableEq ν] : DecidableEq (SortedMap κ ν) := fun a b =>
  decidable_of_iff (a.entries = b.entries)
    ⟨fun h => by cases a; cases b; simp_all, fun h => h ▸ rfl⟩

/-! ## 3. The operations told through `get?` -/

variable [Std.LawfulEqOrd κ]

theorem lookup_insertEntry (k k' : κ) (v : ν) [DecidableEq κ] :
    ∀ l : List (κ × ν),
      lookup k' (insertEntry k v l) = if k' = k then some v else lookup k' l
  | [] => by
    by_cases h : k' = k <;> simp [insertEntry, lookup, h]
  | (k₁, v₁) :: rest => by
    unfold insertEntry
    split
    · by_cases h : k' = k <;> simp [lookup, h]
    · rename_i hc
      have := Std.LawfulEqCmp.eq_of_compare hc
      subst this
      by_cases h : k' = k <;> simp [lookup, h]
    · rename_i hc
      have hne : k ≠ k₁ := fun h => by subst h; simp [Std.ReflCmp.compare_self] at hc
      by_cases h : k' = k
      · subst h
        simp [lookup, lookup_insertEntry k' k' v rest, hne]
      · simp [lookup, lookup_insertEntry k k' v rest, h]

/-- **An insertion answers at its own key and leaves the others alone.** -/
theorem get?_insert [DecidableEq κ] (m : SortedMap κ ν) (k k' : κ) (v : ν) :
    (m.insert k v).get? k' = if k' = k then some v else m.get? k' :=
  lookup_insertEntry k k' v m.entries

theorem lookup_filter_ne (k k' : κ) [DecidableEq κ] :
    ∀ l : List (κ × ν),
      lookup k' (l.filter fun e => compare k e.1 != .eq) = if k' = k then none else lookup k' l
  | [] => by simp [lookup]
  | (k₁, v₁) :: rest => by
    have ih := lookup_filter_ne k k' rest
    by_cases h : k = k₁
    · subst h
      by_cases h' : k' = k
      · simp_all
      · simp_all [lookup]
    · by_cases h' : k' = k
      · simp_all [lookup]
      · simp_all [lookup]

/-- **An erasure answers at its own key and leaves the others alone.** -/
theorem get?_erase [DecidableEq κ] (m : SortedMap κ ν) (k k' : κ) :
    (m.erase k).get? k' = if k' = k then none else m.get? k' :=
  lookup_filter_ne k k' m.entries

@[simp] theorem get?_empty (k : κ) : (empty : SortedMap κ ν).get? k = none := rfl

theorem lookup_eq_none_of_lt {k : κ} :
    ∀ {l : List (κ × ν)}, (∀ e ∈ l, compare k e.1 = .lt) → lookup k l = none
  | [], _ => rfl
  | (k', v) :: rest, h => by
    have h₁ := h (k', v) List.mem_cons_self
    unfold lookup
    rw [if_neg (by simp at h₁; simp [h₁])]
    exact lookup_eq_none_of_lt fun e he => h e (List.mem_cons_of_mem _ he)

/-- **An entry is what the map answers at its key.** -/
theorem lookup_eq_some_iff {k : κ} {v : ν} :
    ∀ {l : List (κ × ν)}, (l.Pairwise fun a b => compare a.1 b.1 = .lt) →
      (lookup k l = some v ↔ (k, v) ∈ l)
  | [], _ => by simp [lookup]
  | (k', v') :: rest, h => by
    obtain ⟨hhead, hrest⟩ := List.pairwise_cons.mp h
    unfold lookup
    split
    · rename_i hc
      have := Std.LawfulEqCmp.eq_of_compare hc
      subst this
      constructor
      · intro e
        simp only [Option.some.injEq] at e
        subst e
        exact List.mem_cons_self
      · intro hm
        rcases List.mem_cons.mp hm with e | hm
        · simp_all
        · have := hhead _ hm
          simp [Std.ReflCmp.compare_self] at this
    · rename_i hc
      rw [lookup_eq_some_iff hrest]
      constructor
      · exact List.mem_cons_of_mem _
      · intro hm
        rcases List.mem_cons.mp hm with e | hm
        · simp only [Prod.mk.injEq] at e
          exact absurd (by rw [e.1]; exact Std.ReflCmp.compare_self) hc
        · exact hm

theorem get?_eq_some_iff (m : SortedMap κ ν) (k : κ) (v : ν) :
    m.get? k = some v ↔ (k, v) ∈ m.entries :=
  lookup_eq_some_iff m.sorted

theorem eq_of_lookup_eq :
    ∀ {l₁ l₂ : List (κ × ν)}, (l₁.Pairwise fun a b => compare a.1 b.1 = .lt) →
      (l₂.Pairwise fun a b => compare a.1 b.1 = .lt) →
      (∀ k, lookup k l₁ = lookup k l₂) → l₁ = l₂
  | [], [], _, _, _ => rfl
  | [], (k, v) :: r, _, _, h => by
    have := h k
    simp [lookup] at this
  | (k, v) :: r, [], _, _, h => by
    have := h k
    simp [lookup] at this
  | (k₁, v₁) :: r₁, (k₂, v₂) :: r₂, h₁, h₂, h => by
    obtain ⟨hh₁, hr₁⟩ := List.pairwise_cons.mp h₁
    obtain ⟨hh₂, hr₂⟩ := List.pairwise_cons.mp h₂
    have hk : compare k₁ k₂ = .eq := by
      cases hc : compare k₁ k₂ with
      | eq => rfl
      | lt =>
        have : lookup k₁ ((k₂, v₂) :: r₂) = none := lookup_eq_none_of_lt fun e he => by
          rcases List.mem_cons.mp he with rfl | he
          · exact hc
          · exact Std.TransCmp.lt_trans hc (hh₂ e he)
        rw [← h k₁] at this
        simp [lookup] at this
      | gt =>
        have hc' := lt_of_gt hc
        have : lookup k₂ ((k₁, v₁) :: r₁) = none := lookup_eq_none_of_lt fun e he => by
          rcases List.mem_cons.mp he with rfl | he
          · exact hc'
          · exact Std.TransCmp.lt_trans hc' (hh₁ e he)
        rw [h k₂] at this
        simp [lookup] at this
    have := Std.LawfulEqCmp.eq_of_compare hk
    subst this
    have hv : v₁ = v₂ := by
      have := h k₁
      simpa [lookup] using this
    subst hv
    have : r₁ = r₂ := eq_of_lookup_eq hr₁ hr₂ fun k => by
      by_cases hc : compare k k₁ = .eq
      · have := Std.LawfulEqCmp.eq_of_compare hc
        subst this
        rw [lookup_eq_none_of_lt hh₁, lookup_eq_none_of_lt hh₂]
      · have := h k
        simpa [lookup, hc] using this
    rw [this]

/-- **Maps that answer every question alike are equal.** -/
@[ext] theorem ext_get? {m₁ m₂ : SortedMap κ ν} (h : ∀ k, m₁.get? k = m₂.get? k) : m₁ = m₂ := by
  have := eq_of_lookup_eq m₁.sorted m₂.sorted h
  cases m₁
  cases m₂
  simp_all

/-- **A map is empty exactly if it answers nowhere.** -/
theorem isEmpty_iff (m : SortedMap κ ν) : m.isEmpty = true ↔ m = empty := by
  constructor
  · intro h
    have : m.entries = [] := List.isEmpty_iff.mp h
    cases m
    simp_all [empty]
  · rintro rfl
    rfl

/-! ## 4. The keys, and maps made of lists -/

theorem lookup_eq_none_iff {k : κ} :
    ∀ {l : List (κ × ν)}, lookup k l = none ↔ k ∉ l.map (·.1)
  | [] => by simp [lookup]
  | (k', v) :: rest => by
    unfold lookup
    rw [List.map_cons, List.mem_cons, not_or, ← lookup_eq_none_iff (l := rest)]
    by_cases h : compare k k' = .eq
    · rw [if_pos h]
      simp [Std.LawfulEqCmp.eq_of_compare h]
    · rw [if_neg h]
      have hne : k ≠ k' := fun e => h (e ▸ Std.ReflCmp.compare_self)
      simp [hne]

theorem get?_eq_none_iff (m : SortedMap κ ν) (k : κ) : m.get? k = none ↔ k ∉ m.keys :=
  lookup_eq_none_iff

theorem mem_keys_insert [DecidableEq κ] (m : SortedMap κ ν) {k k' : κ} {v : ν} :
    k' ∈ (m.insert k v).keys ↔ k' = k ∨ k' ∈ m.keys := by
  rw [← Decidable.not_iff_not, not_or, ← get?_eq_none_iff, ← get?_eq_none_iff, get?_insert]
  by_cases h : k' = k <;> simp [h]

theorem mem_keys_foldl [DecidableEq κ] {k : κ} : ∀ {l : List (κ × ν)} {m : SortedMap κ ν},
    k ∈ (l.foldl (fun m (k, v) => m.insert k v) m).keys ↔ k ∈ m.keys ∨ k ∈ l.map (·.1)
  | [], m => by simp
  | (k', v) :: rest, m => by
    rw [List.foldl_cons, mem_keys_foldl, mem_keys_insert, List.map_cons, List.mem_cons, or_assoc,
      or_left_comm]

/-- The keys of the map of a list are the keys in the list. -/
theorem mem_keys_ofList [DecidableEq κ] {k : κ} {l : List (κ × ν)} :
    k ∈ (ofList l).keys ↔ k ∈ l.map (·.1) :=
  mem_keys_foldl.trans (or_iff_right List.not_mem_nil)

theorem nodup_of_sorted {l : List (κ × ν)} (h : l.Pairwise fun a b => compare a.1 b.1 = .lt) :
    (l.map (·.1)).Nodup :=
  List.pairwise_map.mpr (h.imp fun hlt he => by
    rw [he] at hlt
    simp [Std.ReflCmp.compare_self] at hlt)

/-- No key is named twice. -/
theorem nodup_keys (m : SortedMap κ ν) : m.keys.Nodup := nodup_of_sorted m.sorted

theorem insertEntry_perm {k : κ} (v : ν) :
    ∀ {l : List (κ × ν)}, lookup k l = none → (insertEntry k v l).Perm ((k, v) :: l)
  | [], _ => .refl _
  | (k', v') :: rest, h => by
    unfold lookup at h
    unfold insertEntry
    split
    · exact .refl _
    · rename_i hc
      rw [if_pos hc] at h
      cases h
    · rename_i hc
      rw [if_neg (by simp [hc])] at h
      exact ((insertEntry_perm v h).cons _).trans (.swap _ _ _)

theorem foldl_insert_perm : ∀ (l : List (κ × ν)) (m : SortedMap κ ν),
    ((m.entries ++ l).map (·.1)).Nodup →
      (l.foldl (fun m (k, v) => m.insert k v) m).entries.Perm (m.entries ++ l)
  | [], m, _ => by
    rw [List.append_nil]
    exact .refl _
  | (k, v) :: rest, m, h => by
    have hnone : lookup k m.entries = none := by
      rw [lookup_eq_none_iff]
      intro hm
      rw [List.map_append, List.map_cons] at h
      exact (List.nodup_append.mp h).2.2 k hm k List.mem_cons_self rfl
    have hp : ((m.insert k v).entries ++ rest).Perm (m.entries ++ (k, v) :: rest) :=
      ((insertEntry_perm v hnone).append_right rest).trans List.perm_middle.symm
    exact (foldl_insert_perm rest (m.insert k v) ((hp.map _).nodup_iff.mpr h)).trans hp

/-- **A list that names no key twice is the list of the entries up to its order.** -/
theorem entries_ofList_perm {l : List (κ × ν)} (h : (l.map (·.1)).Nodup) :
    (ofList l).entries.Perm l :=
  foldl_insert_perm l empty h

theorem eq_of_sorted_of_perm {l l' : List (κ × ν)}
    (h : l.Pairwise fun a b => compare a.1 b.1 = .lt)
    (h' : l'.Pairwise fun a b => compare a.1 b.1 = .lt) (hp : l.Perm l') : l = l' :=
  hp.eq_of_pairwise (fun _ _ _ _ hab hba => by
    have := Std.TransCmp.lt_trans hab hba
    simp [Std.ReflCmp.compare_self] at this) h h'

/-- The entries of a list are the list in ascending order of keys. -/
theorem entries_ofList_of_perm {l l' : List (κ × ν)} (hp : l.Perm l')
    (h : l'.Pairwise fun a b => compare a.1 b.1 = .lt) : (ofList l).entries = l' := by
  have hnodup : (l.map (·.1)).Nodup := (hp.map _).nodup_iff.mpr (nodup_of_sorted h)
  exact eq_of_sorted_of_perm (ofList l).sorted h ((entries_ofList_perm hnodup).trans hp)

end SortedMap

end Converge
