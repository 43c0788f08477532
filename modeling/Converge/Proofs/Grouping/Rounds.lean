import Converge.Proofs.Grouping.Groups
import Converge.Proofs.Grouping.Walks

/-!
# The grouping round by round

The grouping over plain parents, one round of a walk, one touch or one placed row at a time. It can end
before its time: a place that there is not has no number to be read or written.

* `Moment`, `Moment.next?`: where the grouping is, and where it goes from there;
* `Safe`, **`next_cases`**: what holds at a moment, and that it goes on from there if it is not over, with the
  same classes unless two roots were joined;
* `Shows`, `leads_touch`, `leads_place`: from a moment that shows a forest to one that shows the forest after
  a touch or a placed row;
* **`rounds_sound`**: what is asked of parents holds at every moment, and the grouping comes to its end with
  the groups of `groupByResource`.
-/

namespace Converge.Grouping

/-! ## 1. Moments -/

/-- What a walk to a root is for. -/
inductive Aim where
  /-- The root is to be joined with the root above a row. -/
  | rootOf (row : Nat)
  /-- The root is to be joined with another. -/
  | join (root : Nat)
  /-- A row is to be placed in the group of the root. -/
  | place (row : Nat)

/-- Where the grouping is. -/
structure Moment where
  parents : Parents
  /-- The first row that touched a resource. -/
  owner : SortedMap String Nat
  groups : SortedMap Nat (List Nat)
  /-- The rows and resources still to be touched. -/
  touches : List (Nat × String)
  /-- The rows still to be placed. -/
  rows : List Nat
  /-- The walk that is under way: the row that it has come to, and what it is for. -/
  walk : Option (Nat × Aim)

namespace Moment

/-- A walk has come to a root. -/
def arrive (m : Moment) (root : Nat) : Aim → Option Moment
  | .rootOf row => some { m with walk := some (row, .join root) }
  | .join other =>
    if other = root then some { m with walk := none }
    else if max other root < m.parents.length then
      some { m with parents := m.parents.join other root, walk := none }
    else none
  | .place row =>
    some { m with
      groups := m.groups.insert root ((m.groups.get? root).getD [] ++ [row]), walk := none }

/-- A row touches a resource. -/
def touch (m : Moment) (row : Nat) (resource : String) (later : List (Nat × String)) : Moment :=
  match m.owner.get? resource with
  | some first => { m with touches := later, walk := some (row, .rootOf first) }
  | none => { m with touches := later, owner := m.owner.insert resource row }

/-- The next moment. There is none at the end, and none if a place is read or written that there is not. -/
def next? (m : Moment) : Option Moment :=
  match m.walk with
  | some (i, aim) =>
    match m.parents.stride i with
    | .astray => none
    | .on ps j => some { m with parents := ps, walk := some (j, aim) }
    | .home => m.arrive i aim
  | none =>
    match m.touches with
    | (row, resource) :: later => some (m.touch row resource later)
    | [] =>
      match m.rows with
      | row :: later => some { m with rows := later, walk := some (row, .place row) }
      | [] => none

/-- Everything is touched and placed. -/
structure IsOver (m : Moment) : Prop where
  walk : m.walk = none
  touches : m.touches = []
  rows : m.rows = []

/-- The grouping of these resources begins: every row is its own parent. -/
def begin (resources : List (List String)) : Moment where
  parents := List.range resources.length
  owner := .empty
  groups := .empty
  touches := (List.finRange resources.length).flatMap fun i =>
    (resources.get i).map fun resource => (i.val, resource)
  rows := List.range resources.length
  walk := none

end Moment

/-- The grouping of these resources comes to a moment. -/
inductive Reached (resources : List (List String)) : Moment → Prop where
  | begin : Reached resources (Moment.begin resources)
  | next {m m' : Moment} (h : Reached resources m) (hnext : m.next? = some m') : Reached resources m'

/-! ## 2. What holds at every moment -/

variable {n : Nat}

/-- The rows of an aim are rows, and its root is a root. -/
def Aim.Fits (n : Nat) (ps : Parents) : Aim → Prop
  | .rootOf row | .place row => row < n
  | .join root => ps[root]? = some root

/-- What holds at a moment: rows are rows, and the parents are those of a forest. -/
structure Safe (n : Nat) (m : Moment) : Prop where
  forest : ∃ f : Forest n, f.plain = m.parents
  walk : ∀ i aim, m.walk = some (i, aim) → i < n ∧ aim.Fits n m.parents
  owner : ∀ r i, m.owner.get? r = some i → i < n
  touches : ∀ t ∈ m.touches, t.1 < n
  rows : ∀ i ∈ m.rows, i < n

theorem safe_begin (resources : List (List String)) :
    Safe resources.length (Moment.begin resources) where
  forest := ⟨.singletons _, Forest.plain_singletons _⟩
  walk := nofun
  owner := nofun
  touches t ht := by
    obtain ⟨i, -, hi⟩ := List.mem_flatMap.mp ht
    obtain ⟨r, -, rfl⟩ := List.mem_map.mp hi
    exact i.isLt
  rows i hi := List.mem_range.mp hi

/-- The classes of two moments are the same. -/
def SameClasses (m m' : Moment) : Prop := ∀ k l, m'.parents.Class k l ↔ m.parents.Class k l

/-- The later moment is the earlier one with two roots joined. -/
structure Joins (a b : Nat) (m m' : Moment) : Prop where
  ne : a ≠ b
  first : m.parents[a]? = some a
  second : m.parents[b]? = some b
  joined : m'.parents = m.parents.join a b

theorem Safe.arrive {m : Moment} (h : Safe n m) {root : Nat} {aim : Aim}
    (hwalk : m.walk = some (root, aim)) (hroot : m.parents[root]? = some root) :
    ∃ m', m.arrive root aim = some m' ∧ Safe n m' ∧ (SameClasses m m' ∨ ∃ a b, Joins a b m m') := by
  obtain ⟨hlt, hfits⟩ := h.walk root aim hwalk
  cases aim with
  | rootOf row =>
    refine ⟨_, rfl, ⟨h.forest, ?_, h.owner, h.touches, h.rows⟩, .inl fun _ _ => .rfl⟩
    rintro i aim ⟨⟩
    exact ⟨hfits, hroot⟩
  | place row =>
    exact ⟨_, rfl, ⟨h.forest, nofun, h.owner, h.touches, h.rows⟩, .inl fun _ _ => .rfl⟩
  | join other =>
    by_cases hne : other = root
    · refine ⟨_, if_pos hne, ⟨h.forest, nofun, h.owner, h.touches, h.rows⟩, .inl fun _ _ => .rfl⟩
    · obtain ⟨f, hf⟩ := h.forest
      have hother : other < n := by
        rw [← hf] at hfits
        exact (Forest.plain_eq_some hfits).1
      have hlength : max other root < m.parents.length := by
        rw [← hf, Forest.length_plain]
        omega
      refine ⟨_, (if_neg hne).trans (if_pos hlength), ⟨?_, nofun, h.owner, h.touches, h.rows⟩,
        .inr ⟨other, root, hne, hfits, hroot, rfl⟩⟩
      refine ⟨f.point (max other root) (min other root) (by omega) (by omega), ?_⟩
      rw [Forest.plain_point, hf]
      rfl

/-- A walk has come to a root, or one more round leaves everything safe and the classes as they are. -/
theorem Safe.round {m : Moment} (h : Safe n m) {i : Nat} {aim : Aim}
    (hwalk : m.walk = some (i, aim)) :
    (m.parents.stride i = .home ∧ m.parents[i]? = some i) ∨
      ∃ ps j, m.parents.stride i = .on ps j ∧
        Safe n { m with parents := ps, walk := some (j, aim) } ∧
          ∀ k l, ps.Class k l ↔ m.parents.Class k l := by
  obtain ⟨hi, hfits⟩ := h.walk i aim hwalk
  obtain ⟨f, hf⟩ := h.forest
  rw [← hf]
  obtain ⟨hup, hhome⟩ | ⟨g, t, hon, -, -, hroots, hstay⟩ := f.stride_cases ⟨i, hi⟩
  · refine .inl ⟨hhome, ?_⟩
    rw [f.plain_get? ⟨i, hi⟩, hup]
  · refine .inr ⟨_, _, hon, ⟨⟨g, rfl⟩, ?_, h.owner, h.touches, h.rows⟩,
      Forest.class_congr hroots⟩
    rintro j aim' ⟨⟩
    refine ⟨t.isLt, ?_⟩
    cases aim with
    | rootOf row => exact hfits
    | place row => exact hfits
    | join root =>
      -- the round has moved a row that was no root
      have hroot : m.parents[root]? = some root := hfits
      rw [← hf] at hroot
      obtain ⟨hlt, hup⟩ := Forest.plain_eq_some hroot
      show g.plain[root]? = some root
      rw [g.plain_get? ⟨root, hlt⟩, hstay _ (Fin.ext hup)]

theorem Safe.touch {m : Moment} (h : Safe n m) {row : Nat} {resource : String}
    {later : List (Nat × String)} (htouches : m.touches = (row, resource) :: later) :
    Safe n (m.touch row resource later) ∧ SameClasses m (m.touch row resource later) := by
  have hrow : row < n := h.touches (row, resource) (htouches ▸ List.mem_cons_self)
  have hlater : ∀ t ∈ later, t.1 < n := by
    intro t ht
    exact h.touches t (htouches ▸ List.mem_cons_of_mem _ ht)
  unfold Moment.touch
  cases howner : m.owner.get? resource with
  | some first =>
    refine ⟨⟨h.forest, ?_, h.owner, hlater, h.rows⟩, fun _ _ => .rfl⟩
    rintro i aim ⟨⟩
    exact ⟨hrow, h.owner resource first howner⟩
  | none =>
    refine ⟨⟨h.forest, h.walk, ?_, hlater, h.rows⟩, fun _ _ => .rfl⟩
    intro r i hget
    rw [SortedMap.get?_insert] at hget
    by_cases hr : r = resource
    · rw [if_pos hr] at hget
      cases hget
      exact hrow
    · rw [if_neg hr] at hget
      exact h.owner r i hget

/-- **A moment is the end or goes on**, to one of the same kind. The classes stay the same unless two roots
    were joined. -/
theorem next_cases {m : Moment} (h : Safe n m) : (m.IsOver ∧ m.next? = none) ∨
    ∃ m', m.next? = some m' ∧ Safe n m' ∧ (SameClasses m m' ∨ ∃ a b, Joins a b m m') := by
  unfold Moment.next?
  cases hwalk : m.walk with
  | some w =>
    obtain ⟨i, aim⟩ := w
    dsimp only
    obtain ⟨hhome, hroot⟩ | ⟨ps, j, hon, hsafe, hclasses⟩ := h.round hwalk
    · rw [hhome]
      exact .inr (h.arrive hwalk hroot)
    · rw [hon]
      exact .inr ⟨_, rfl, hsafe, .inl hclasses⟩
  | none =>
    dsimp only
    cases htouches : m.touches with
    | cons t later =>
      obtain ⟨hsafe, hclasses⟩ := h.touch htouches
      exact .inr ⟨_, rfl, hsafe, .inl hclasses⟩
    | nil =>
      dsimp only
      cases hrows : m.rows with
      | nil => exact .inl ⟨⟨hwalk, htouches, hrows⟩, rfl⟩
      | cons row later =>
        have hrow : row < n := h.rows row (hrows ▸ List.mem_cons_self)
        refine .inr ⟨_, rfl, ⟨h.forest, ?_, h.owner, ?_, ?_⟩, .inl fun _ _ => .rfl⟩
        · rintro i aim ⟨⟩
          exact ⟨hrow, hrow⟩
        · exact nofun
        · intro i hi
          exact h.rows i (hrows ▸ List.mem_cons_of_mem _ hi)

theorem Reached.safe {resources : List (List String)} {m : Moment} (h : Reached resources m) :
    Safe resources.length m := by
  induction h with
  | begin => exact safe_begin resources
  | next _ hnext ih =>
    obtain ⟨-, hnone⟩ | ⟨m', hsome, hsafe, -⟩ := next_cases ih
    · rw [hnone] at hnext
      cases hnext
    · rw [hsome] at hnext
      cases hnext
      exact hsafe

/-! ## 3. To the end -/

/-- The one moment comes to be the other. -/
def Leads : Moment → Moment → Prop := Relation.ReflTransGen fun m m' => m.next? = some m'

theorem Reached.leads {resources : List (List String)} {m m' : Moment} (h : Reached resources m)
    (hleads : Leads m m') : Reached resources m' := by
  induction hleads with
  | refl => exact h
  | tail _ hnext ih => exact ih.next hnext

/-- The moment of a walk that is under way. -/
def Moment.walking (m : Moment) (ps : Parents) (i : Nat) (aim : Aim) : Moment :=
  { m with parents := ps, walk := some (i, aim) }

theorem leads_walk (m : Moment) (aim : Aim) {ps ps' : Parents} {i j k : Nat}
    (h : ps.Walk i k ps' j) : Leads (m.walking ps i aim) (m.walking ps' j aim) := by
  induction h with
  | start => exact .refl
  | round _ hstride ih =>
    refine ih.tail ?_
    unfold Moment.next?
    simp only [Moment.walking, hstride]

/-- **A walk ends at the root that the forest's walk ends at**, and the grouping goes on from there. -/
theorem leads_find (f : Forest n) (i : Fin n) {m m' : Moment} {aim : Aim}
    (harrive : (m.walking (f.find i i.isLt).1.plain (f.find i i.isLt).2.val aim).arrive
      (f.find i i.isLt).2.val aim = some m') : Leads (m.walking f.plain i aim) m' := by
  obtain ⟨k, hwalk⟩ := f.walk_find i
  refine (leads_walk m aim hwalk).tail ?_
  unfold Moment.next?
  have hhome := f.stride_find i
  simp only [Moment.walking] at harrive ⊢
  rw [hhome]
  exact harrive

/-- The parents of a union: the roots that two walks find are joined. -/
theorem Forest.plain_union (f : Forest n) (i j : Fin n) : (f.union i j i.isLt j.isLt).plain =
    if (f.find i i.isLt).2.val = ((f.find i i.isLt).1.find j j.isLt).2.val then
      ((f.find i i.isLt).1.find j j.isLt).1.plain
    else ((f.find i i.isLt).1.find j j.isLt).1.plain.join (f.find i i.isLt).2.val
      ((f.find i i.isLt).1.find j j.isLt).2.val := by
  unfold union
  rcases f.find i i.isLt with ⟨g, a⟩
  dsimp only
  rcases g.find j j.isLt with ⟨h, b⟩
  dsimp only
  split
  · rfl
  · exact plain_point ..

/-- **Two walks and a join make a union.** -/
theorem leads_union (f : Forest n) (i j : Fin n) (m : Moment) :
    Leads (m.walking f.plain i (.rootOf j))
      { m with parents := (f.union i j i.isLt j.isLt).plain, walk := none } := by
  have hfirst : Leads (m.walking f.plain i (.rootOf j))
      (m.walking (f.find i i.isLt).1.plain j (.join (f.find i i.isLt).2.val)) :=
    leads_find f i rfl
  refine hfirst.trans (leads_find _ j ?_)
  rw [Forest.plain_union]
  have ha : (f.find i i.isLt).2.val < n := Nat.lt_of_le_of_lt (f.find i i.isLt).2.property i.isLt
  have hb : ((f.find i i.isLt).1.find j j.isLt).2.val < n :=
    Nat.lt_of_le_of_lt ((f.find i i.isLt).1.find j j.isLt).2.property j.isLt
  by_cases hab : (f.find i i.isLt).2.val = ((f.find i i.isLt).1.find j j.isLt).2.val
  · rw [if_pos hab]
    exact if_pos hab
  · have hlength : max (f.find i i.isLt).2.val ((f.find i i.isLt).1.find j j.isLt).2.val <
        ((f.find i i.isLt).1.find j j.isLt).1.plain.length := by
      rw [Forest.length_plain]
      omega
    rw [if_neg hab]
    exact (if_neg hab).trans (if_pos hlength)

/-- The moment shows the progress of a grouping. -/
structure Moment.Shows (m : Moment) (p : Progress n) : Prop where
  parents : m.parents = p.forest.plain
  owner : ∀ r, m.owner.get? r = (p.owner.get? r).map Fin.val

theorem leads_touch {m : Moment} {p : Progress n} (h : m.Shows p) (hwalk : m.walk = none) {i : Fin n}
    {r : String} {later : List (Nat × String)} (htouches : m.touches = (i.val, r) :: later) :
    ∃ m', Leads m m' ∧ m'.Shows (touch i p r) ∧ m'.walk = none ∧ m'.touches = later ∧
      m'.rows = m.rows ∧ m'.groups = m.groups := by
  have hnext : m.next? = some (m.touch i r later) := by
    unfold Moment.next?
    rw [hwalk, htouches]
  have howner := h.owner r
  unfold Moment.touch at hnext
  unfold Grouping.touch
  cases hfirst : p.owner.get? r with
  | none =>
    rw [howner, hfirst] at hnext
    refine ⟨{ m with touches := later, owner := m.owner.insert r i.val }, .single hnext,
      ⟨h.parents, ?_⟩, hwalk, rfl, rfl, rfl⟩
    intro q
    show (m.owner.insert r i.val).get? q = ((p.owner.insert r i).get? q).map Fin.val
    rw [SortedMap.get?_insert, SortedMap.get?_insert, h.owner]
    split <;> rfl
  | some j =>
    rw [howner, hfirst] at hnext
    have hsecond : m.next? = some ({ m with touches := later }.walking p.forest.plain i (.rootOf j)) := by
      rw [hnext, ← h.parents]
      rfl
    exact ⟨_, .head hsecond (leads_union p.forest i j { m with touches := later }),
      ⟨rfl, h.owner⟩, rfl, rfl, rfl, rfl⟩

theorem leads_touches : ∀ {todo : List (Fin n × String)} {m : Moment} {p : Progress n}, m.Shows p →
    m.walk = none → m.touches = todo.map (fun t => (t.1.val, t.2)) →
      ∃ m', Leads m m' ∧ m'.Shows (todo.foldl (fun p t => touch t.1 p t.2) p) ∧ m'.walk = none ∧
        m'.touches = [] ∧ m'.rows = m.rows ∧ m'.groups = m.groups
  | [], m, _, h, hwalk, htouches => ⟨m, .refl, h, hwalk, htouches, rfl, rfl⟩
  | t :: todo, m, p, h, hwalk, htouches => by
    obtain ⟨m₁, hleads, hshows, hwalk₁, htouches₁, hrows, hgroups⟩ :=
      leads_touch h hwalk (i := t.1) (r := t.2) htouches
    obtain ⟨m₂, hleads₂, hshows₂, hwalk₂, htouches₂, hrows₂, hgroups₂⟩ :=
      leads_touches hshows hwalk₁ htouches₁
    exact ⟨m₂, hleads.trans hleads₂, hshows₂, hwalk₂, htouches₂, hrows₂.trans hrows,
      hgroups₂.trans hgroups⟩

theorem leads_place {m : Moment} {f : Forest n} {groups : SortedMap Nat (List Nat)}
    (hparents : m.parents = f.plain) (hgroups : m.groups = groups) (hwalk : m.walk = none)
    (htouches : m.touches = []) {i : Fin n} {later : List Nat} (hrows : m.rows = i.val :: later) :
    ∃ m', Leads m m' ∧ m'.parents = (place (f, groups) i).1.plain ∧
      m'.groups = (place (f, groups) i).2 ∧ m'.walk = none ∧ m'.touches = [] ∧ m'.rows = later := by
  have hnext : m.next? = some ({ m with rows := later }.walking f.plain i (.place i)) := by
    unfold Moment.next?
    rw [hwalk, htouches, hrows, ← hparents]
    dsimp only
    rw [← htouches]
    rfl
  refine ⟨_, .head hnext (leads_find f i rfl), rfl, ?_, rfl, htouches, rfl⟩
  rw [← hgroups]
  rfl

theorem leads_places : ∀ {todo : List (Fin n)} {m : Moment} {f : Forest n}
    {groups : SortedMap Nat (List Nat)}, m.parents = f.plain → m.groups = groups →
      m.walk = none → m.touches = [] → m.rows = todo.map Fin.val →
        ∃ m', Leads m m' ∧ m'.groups = (todo.foldl place (f, groups)).2 ∧ m'.IsOver
  | [], m, _, _, _, hgroups, hwalk, htouches, hrows => ⟨m, .refl, hgroups, hwalk, htouches, hrows⟩
  | i :: todo, m, f, groups, hparents, hgroups, hwalk, htouches, hrows => by
    obtain ⟨m₁, hleads, hparents₁, hgroups₁, hwalk₁, htouches₁, hrows₁⟩ :=
      leads_place hparents hgroups hwalk htouches hrows
    obtain ⟨m₂, hleads₂, hgroups₂, hover⟩ :=
      leads_places hparents₁ hgroups₁ hwalk₁ htouches₁ hrows₁
    exact ⟨m₂, hleads.trans hleads₂, hgroups₂, hover⟩

/-- The touches of all rows, one after another, make the forest of the grouping. -/
theorem foldl_touches (resources : List (List String)) :
    (((List.finRange resources.length).flatMap fun i =>
      (resources.get i).map fun r => (i, r)).foldl (fun p t => touch t.1 p t.2)
        ⟨.singletons _, .empty⟩) = link resources := by
  rw [List.foldl_flatMap]
  unfold link
  congr 1
  funext p i
  rw [List.foldl_map]
  rfl

/-- **The grouping comes to its end, with the groups.** -/
theorem exists_end (resources : List (List String)) : ∃ m, Reached resources m ∧ m.IsOver ∧
    m.groups.entries.map Prod.snd = groupByResource resources := by
  have hbegin : (Moment.begin resources).Shows ⟨.singletons resources.length, .empty⟩ :=
    ⟨(Forest.plain_singletons _).symm, fun _ => rfl⟩
  have htouches : (Moment.begin resources).touches =
      ((List.finRange resources.length).flatMap fun i =>
        (resources.get i).map fun r => (i, r)).map (fun t => (t.1.val, t.2)) := by
    rw [List.map_flatMap]
    unfold Moment.begin
    dsimp only
    congr 1
    funext i
    rw [List.map_map]
    rfl
  obtain ⟨m, hleads, hshows, hwalk, hnone, hrows, hgroups⟩ := leads_touches hbegin rfl htouches
  rw [foldl_touches] at hshows
  have hplaces : m.rows = (List.finRange resources.length).map Fin.val := by
    rw [hrows, List.map_coe_finRange_eq_range]
    rfl
  obtain ⟨m', hleads', hgroups', hover⟩ :=
    leads_places hshows.parents hgroups hwalk hnone hplaces
  refine ⟨m', (Reached.begin.leads hleads).leads hleads', hover, ?_⟩
  rw [hgroups']
  rfl

/-! ## 4. Every moment -/

/-- **The parents are sound at every moment of the grouping**, for all resources. Parents are sound if no row
    has a later one, and so they are at every moment: a walk from any row reads no place that there is not,
    ends at the smallest row of the class and changes no class. Until the end there is a next moment, with the
    same classes or with those of two roots put together, and the end comes with the groups. -/
theorem rounds_sound (resources : List (List String)) :
    (∀ (n : Nat) (ps : Parents),
      ps.Sound n ↔ ps.length = n ∧ ∀ i p : Nat, ps[i]? = some p → p ≤ i) ∧
    (∀ m, Reached resources m → m.parents.Sound resources.length ∧
      ((m.IsOver ∧ m.next? = none) ∨ ∃ m', m.next? = some m' ∧
        (SameClasses m m' ∨ ∃ a b, Joins a b m m'))) ∧
    ∃ m, Reached resources m ∧ m.IsOver ∧
      m.groups.entries.map Prod.snd = groupByResource resources := by
  refine ⟨fun _ _ => Parents.sound_iff, ?_, exists_end resources⟩
  intro m hm
  obtain ⟨f, hf⟩ := hm.safe.forest
  refine ⟨hf ▸ f.sound_plain, ?_⟩
  obtain hover | ⟨m', hnext, -, hclasses⟩ := next_cases hm.safe
  · exact .inl hover
  · exact .inr ⟨m', hnext, hclasses⟩

end Converge.Grouping
