import Mathlib.Data.List.Induction
import Converge.Event

/-!
# Events sent as lists

A list is read as an event by position: the key, the name of an operation, and behind them fields
and values in turn.

* `Operation.ofName?_eq_some_iff`: an operation is read from its names and from no other text;
* `SortedMap.get?_ofList_eq_some_iff`: of several entries of one key the last counts;
* `pairUp?_eq_some_iff`, `pairUp?_eq_none_iff`: texts are paired up exactly if their number is even.
  `lastValue_inTurn_iff` says which value of a field is the last one, by places in the list;
* `ofFields_eq_ok_iff`, `ofFields_eq_error_iff`: what a list is read as, and what is wrong with one
  that is not;
* **`lists_read_exactly`**: all of it for every list, and every list of an event is read as the event.
-/

namespace Converge

/-! ## 1. Names of operations -/

namespace Operation

/-- The names that an operation is sent under. -/
def names : Operation → List String
  | .set => ["SET", "set", "hset"]
  | .del => ["DEL", "del"]

theorem ofName?_eq_some_iff {name : String} {op : Operation} :
    ofName? name = some op ↔ name ∈ op.names := by
  constructor
  · intro h
    unfold ofName? at h
    split at h
    all_goals cases h
    all_goals decide
  · intro h
    cases op with
    | set =>
      simp only [names, List.mem_cons, List.not_mem_nil, or_false] at h
      rcases h with rfl | rfl | rfl <;> rfl
    | del =>
      simp only [names, List.mem_cons, List.not_mem_nil, or_false] at h
      rcases h with rfl | rfl <;> rfl

theorem ofName?_eq_none_iff {name : String} :
    ofName? name = none ↔ ∀ op : Operation, name ∉ op.names := by
  rw [Option.eq_none_iff_forall_ne_some]
  exact forall_congr' fun op => not_congr ofName?_eq_some_iff

end Operation

/-! ## 2. The last entry of a key -/

namespace SortedMap

variable {κ ν : Type}

/-- The entry stands in the list, and none of its key stands behind it. -/
def LastOf (l : List (κ × ν)) (k : κ) (v : ν) : Prop :=
  ∃ i : Nat, l[i]? = some (k, v) ∧ ∀ j w, i < j → l[j]? ≠ some (k, w)

theorem lastOf_concat {l : List (κ × ν)} {e : κ × ν} {k : κ} {v : ν} :
    LastOf (l ++ [e]) k v ↔ e = (k, v) ∨ (k ≠ e.1 ∧ LastOf l k v) := by
  have hplace (i : Nat) : (l ++ [e])[i]? = if i = l.length then some e else l[i]? := by
    rw [List.getElem?_append]
    grind
  constructor
  · rintro ⟨i, hi, hlast⟩
    rw [hplace] at hi
    by_cases hend : i = l.length
    · rw [if_pos hend] at hi
      exact .inl (Option.some.inj hi)
    · rw [if_neg hend] at hi
      have hlt : i < l.length := (List.getElem?_eq_some_iff.mp hi).1
      refine .inr ⟨fun hk => ?_, i, hi, fun j w hj h => ?_⟩
      · refine hlast l.length e.2 hlt ?_
        rw [hplace, if_pos rfl, hk]
      · have hjlt : j < l.length := (List.getElem?_eq_some_iff.mp h).1
        refine hlast j w hj ?_
        rw [hplace, if_neg (Nat.ne_of_lt hjlt), h]
  · rintro (rfl | ⟨hk, i, hi, hlast⟩)
    · refine ⟨l.length, ?_, fun j w hj h => ?_⟩
      · rw [hplace, if_pos rfl]
      · rw [hplace, if_neg (Nat.ne_of_gt hj)] at h
        have hjlt : j < l.length := (List.getElem?_eq_some_iff.mp h).1
        omega
    · have hlt : i < l.length := (List.getElem?_eq_some_iff.mp hi).1
      refine ⟨i, ?_, fun j w hj h => ?_⟩
      · rw [hplace, if_neg (Nat.ne_of_lt hlt), hi]
      · rw [hplace] at h
        by_cases hend : j = l.length
        · rw [if_pos hend] at h
          exact hk (congrArg Prod.fst (Option.some.inj h)).symm
        · rw [if_neg hend] at h
          exact hlast j w hj h

variable [Ord κ] [Std.TransOrd κ]

theorem ofList_concat (l : List (κ × ν)) (e : κ × ν) :
    ofList (l ++ [e]) = (ofList l).insert e.1 e.2 := by
  unfold ofList
  rw [List.foldl_append]
  rfl

/-- **A map made of a list answers with the last entry of a key.** -/
theorem get?_ofList_eq_some_iff [Std.LawfulEqOrd κ] [DecidableEq κ] {l : List (κ × ν)} {k : κ}
    {v : ν} : (ofList l).get? k = some v ↔ LastOf l k v := by
  induction l using List.reverseRecOn with
  | nil =>
    constructor
    · intro h
      cases h
    · rintro ⟨i, h, -⟩
      cases h
  | append_singleton l e ih =>
    rw [ofList_concat, get?_insert, lastOf_concat, ← ih]
    obtain ⟨k', v'⟩ := e
    by_cases hk : k = k'
    · simp [hk]
    · simp [hk, Ne.symm hk]

/-- The entries of a map, in any order, make the map. -/
theorem ofList_of_perm [Std.LawfulEqOrd κ] {l : List (κ × ν)} {m : SortedMap κ ν}
    (h : l.Perm m.entries) : ofList l = m := by
  have hentries : (ofList l).entries = m.entries := entries_ofList_of_perm h m.sorted
  generalize ofList l = m' at hentries
  cases m'
  cases m
  cases hentries
  rfl

end SortedMap

namespace ChangeEvent

/-! ## 3. Fields and values in turn -/

/-- Fields and values in turn. -/
def inTurn : List (String × String) → List String
  | [] => []
  | (f, v) :: rest => f :: v :: inTurn rest

theorem length_inTurn : ∀ pairs : List (String × String), (inTurn pairs).length = 2 * pairs.length
  | [] => rfl
  | (f, v) :: rest => by
    have ih := length_inTurn rest
    simp only [inTurn, List.length_cons]
    omega

/-- **Texts are paired up exactly if they are fields and values in turn.** -/
theorem pairUp?_eq_some_iff : ∀ {texts : List String} {pairs : List (String × String)},
    pairUp? texts = some pairs ↔ texts = inTurn pairs
  | [], pairs => by cases pairs <;> simp [pairUp?, inTurn]
  | [_], pairs => by
    rcases pairs with _ | ⟨p, rest⟩ <;> simp [pairUp?, inTurn]
  | f :: v :: texts, pairs => by
    unfold pairUp?
    rw [Option.map_eq_some_iff]
    constructor
    · rintro ⟨rest, hrest, rfl⟩
      rw [pairUp?_eq_some_iff.mp hrest]
      rfl
    · intro h
      rcases pairs with _ | ⟨⟨f', v'⟩, rest⟩
      · cases h
      · simp only [inTurn, List.cons.injEq] at h
        obtain ⟨rfl, rfl, h⟩ := h
        exact ⟨rest, pairUp?_eq_some_iff.mpr h, rfl⟩

theorem exists_inTurn : ∀ {texts : List String}, texts.length % 2 = 0 → ∃ pairs, texts = inTurn pairs
  | [], _ => ⟨[], rfl⟩
  | [_], h => by cases h
  | f :: v :: texts, h => by
    rw [List.length_cons, List.length_cons] at h
    have heven : texts.length % 2 = 0 := by omega
    obtain ⟨pairs, rfl⟩ := exists_inTurn heven
    exact ⟨(f, v) :: pairs, rfl⟩

theorem even_length_iff {texts : List String} :
    texts.length % 2 = 0 ↔ ∃ pairs, texts = inTurn pairs := by
  constructor
  · exact exists_inTurn
  · rintro ⟨pairs, rfl⟩
    rw [length_inTurn]
    omega

theorem pairUp?_eq_none_iff {texts : List String} :
    pairUp? texts = none ↔ texts.length % 2 = 1 := by
  have hodd : texts.length % 2 = 1 ↔ ¬ texts.length % 2 = 0 := by omega
  rw [hodd, even_length_iff, Option.eq_none_iff_forall_ne_some, not_exists]
  exact forall_congr' fun pairs => not_congr pairUp?_eq_some_iff

/-- A field stands at an even place, and its value behind it. -/
theorem getElem?_inTurn : ∀ (pairs : List (String × String)) (i : Nat),
    (inTurn pairs)[2 * i]? = pairs[i]?.map Prod.fst ∧
      (inTurn pairs)[2 * i + 1]? = pairs[i]?.map Prod.snd
  | [], _ => ⟨rfl, rfl⟩
  | _ :: _, 0 => ⟨rfl, rfl⟩
  | _ :: rest, i + 1 => getElem?_inTurn rest i

/-- Of the values of a field among fields and values in turn, this is the last. -/
def LastValue (texts : List String) (f v : String) : Prop :=
  ∃ i : Nat, texts[2 * i]? = some f ∧ texts[2 * i + 1]? = some v ∧
    ∀ j, i < j → texts[2 * j]? ≠ some f

theorem lastValue_inTurn_iff {pairs : List (String × String)} {f v : String} :
    LastValue (inTurn pairs) f v ↔ SortedMap.LastOf pairs f v := by
  unfold LastValue SortedMap.LastOf
  refine exists_congr fun i => ?_
  rw [(getElem?_inTurn pairs i).1, (getElem?_inTurn pairs i).2, ← and_assoc]
  refine and_congr ?_ (forall_congr' fun j => ?_)
  · cases pairs[i]? with
    | none => simp
    | some p => simp [Prod.ext_iff]
  · rw [(getElem?_inTurn pairs j).1]
    cases pairs[j]? with
    | none => simp
    | some p => simp [Prod.ext_iff]

/-! ## 4. What a list is read as -/

/-- The row of an event with these fields and values. -/
def rowOf (pairs : List (String × String)) : Operation → Row
  | .set => .ofList pairs
  | .del => .empty

/-- What is wrong with a list that is no event, in the words of the error. -/
inductive Flaw : List String → String → Prop where
  | noKey : Flaw [] "missing key"
  | noOperation (key : String) : Flaw [key] ("missing op for " ++ key)
  | unknownOperation {key name : String} {rest : List String}
      (hname : ∀ op : Operation, name ∉ op.names) :
      Flaw (key :: name :: rest) ("unknown op '" ++ name ++ "' for " ++ key)
  | noValue {key name : String} {rest : List String} {op : Operation} (hname : name ∈ op.names)
      (hodd : rest.length % 2 = 1) :
      Flaw (key :: name :: rest) ("odd field/value count for " ++ key)

variable {table : String} {fields : List String}

theorem ofFields_inTurn (table key : String) {name : String} {op : Operation}
    (hname : name ∈ op.names) (pairs : List (String × String)) :
    ofFields table (key :: name :: inTurn pairs) = .ok ⟨⟨table, key⟩, op, rowOf pairs op⟩ := by
  rw [ofFields, Operation.ofName?_eq_some_iff.mpr hname, pairUp?_eq_some_iff.mpr rfl]
  cases op <;> rfl

theorem ofFields_of_flaw {message : String} (h : Flaw fields message) :
    ofFields table fields = .error (.malformedEvent table message) := by
  cases h with
  | noKey => rfl
  | noOperation key => rfl
  | unknownOperation hname =>
    rw [ofFields, Operation.ofName?_eq_none_iff.mpr hname]
  | noValue hname hodd =>
    rw [ofFields, Operation.ofName?_eq_some_iff.mpr hname, pairUp?_eq_none_iff.mpr hodd]

/-- **A list is an event or has a flaw.** -/
theorem listed_or_flawed : ∀ fields : List String,
    (∃ key name op pairs, fields = key :: name :: inTurn pairs ∧ name ∈ Operation.names op) ∨
      ∃ message, Flaw fields message
  | [] => .inr ⟨_, .noKey⟩
  | [key] => .inr ⟨_, .noOperation key⟩
  | key :: name :: rest => by
    by_cases hname : ∃ op : Operation, name ∈ op.names
    · obtain ⟨op, hname⟩ := hname
      rcases Nat.mod_two_eq_zero_or_one rest.length with heven | hodd
      · obtain ⟨pairs, rfl⟩ := even_length_iff.mp heven
        exact .inl ⟨key, name, op, pairs, rfl, hname⟩
      · exact .inr ⟨_, .noValue hname hodd⟩
    · exact .inr ⟨_, .unknownOperation (not_exists.mp hname)⟩

theorem ofFields_eq_ok_iff {e : ChangeEvent} :
    ofFields table fields = .ok e ↔ ∃ name pairs, fields = e.id.key :: name :: inTurn pairs ∧
      e.id.table = table ∧ name ∈ e.op.names ∧ e.row = rowOf pairs e.op := by
  constructor
  · intro h
    obtain ⟨key, name, op, pairs, rfl, hname⟩ | ⟨message, hflaw⟩ := listed_or_flawed fields
    · rw [ofFields_inTurn table key hname] at h
      cases h
      exact ⟨name, pairs, rfl, rfl, hname, rfl⟩
    · rw [ofFields_of_flaw hflaw] at h
      cases h
  · rintro ⟨name, pairs, rfl, rfl, hname, hrow⟩
    rw [ofFields_inTurn _ _ hname, ← hrow]

theorem ofFields_eq_error_iff {err : Error} :
    ofFields table fields = .error err ↔
      ∃ message, Flaw fields message ∧ err = .malformedEvent table message := by
  constructor
  · intro h
    obtain ⟨key, name, op, pairs, rfl, hname⟩ | ⟨message, hflaw⟩ := listed_or_flawed fields
    · rw [ofFields_inTurn table key hname] at h
      cases h
    · rw [ofFields_of_flaw hflaw] at h
      cases h
      exact ⟨message, hflaw, rfl⟩
  · rintro ⟨message, hflaw, rfl⟩
    exact ofFields_of_flaw hflaw

/-! ## 5. Reading what was written -/

/-- The list says the event: the key, a name of the operation, and the fields in any order. -/
def Lists (e : ChangeEvent) (fields : List String) : Prop :=
  ∃ name ∈ e.op.names, ∃ pairs : List (String × String),
    pairs.Perm e.row.entries ∧ fields = e.id.key :: name :: inTurn pairs

theorem Lists.ofFields_eq {e : ChangeEvent} (hdel : e.op = .del → e.row = .empty)
    (h : Lists e fields) : ofFields e.id.table fields = .ok e := by
  obtain ⟨name, hname, pairs, hperm, rfl⟩ := h
  refine ofFields_eq_ok_iff.mpr ⟨name, pairs, rfl, rfl, hname, ?_⟩
  cases hop : e.op with
  | set => exact (SortedMap.ofList_of_perm hperm).symm
  | del => exact hdel hop

theorem toFields_eq (e : ChangeEvent) :
    e.toFields = e.id.key :: e.op.name :: inTurn e.row.entries := by
  unfold toFields
  congr 2
  induction e.row.entries with
  | nil => rfl
  | cons p rest ih =>
    rw [List.flatMap_cons, ih]
    rfl

/-- The list that an event is written as says the event. -/
theorem lists_toFields (e : ChangeEvent) : Lists e e.toFields :=
  ⟨e.op.name, by cases e.op <;> decide, e.row.entries, .refl _, toFields_eq e⟩

/-- How a list is read as an event of a table. -/
structure Reads (table : String) (fields : List String) (answer : Except Error ChangeEvent) :
    Prop where
  /-- An event is a key, the name of an operation and an even number of further texts. -/
  accepted : (∃ e, answer = .ok e) ↔ ∃ key name rest, fields = key :: name :: rest ∧
    (∃ op : Operation, name ∈ op.names) ∧ rest.length % 2 = 0
  /-- The event is told by the list: a `set` has every field with its last value and no other field,
      a `del` has none. -/
  told : ∀ e, answer = .ok e → ∃ name rest, fields = e.id.key :: name :: rest ∧
    e.id.table = table ∧ name ∈ e.op.names ∧
      (e.op = .set → ∀ f v, e.row.get? f = some v ↔ LastValue rest f v) ∧
      (e.op = .del → e.row = .empty)
  /-- The error for any other list names its flaw. -/
  refused : ∀ err, answer = .error err →
    ∃ message, Flaw fields message ∧ err = .malformedEvent table message

theorem reads_ofFields (table : String) (fields : List String) :
    Reads table fields (ofFields table fields) where
  accepted := by
    constructor
    · rintro ⟨e, he⟩
      obtain ⟨name, pairs, hfields, -, hname, -⟩ := ofFields_eq_ok_iff.mp he
      have heven : (inTurn pairs).length % 2 = 0 := even_length_iff.mpr ⟨pairs, rfl⟩
      exact ⟨e.id.key, name, inTurn pairs, hfields, ⟨e.op, hname⟩, heven⟩
    · rintro ⟨key, name, rest, rfl, ⟨op, hname⟩, heven⟩
      obtain ⟨pairs, rfl⟩ := even_length_iff.mp heven
      exact ⟨_, ofFields_inTurn table key hname pairs⟩
  told e he := by
    obtain ⟨name, pairs, hfields, htable, hname, hrow⟩ := ofFields_eq_ok_iff.mp he
    refine ⟨name, inTurn pairs, hfields, htable, hname, fun hset f v => ?_, fun hdel => ?_⟩
    · rw [hrow, hset, lastValue_inTurn_iff]
      exact SortedMap.get?_ofList_eq_some_iff
    · rw [hrow, hdel]
      rfl
  refused _ h := ofFields_eq_error_iff.mp h

/-- **Lists are read exactly**, for every table: a list is read if it is an event, as the event that it
    is, and otherwise the error names its flaw. Every list of an event is read as the event, the one
    that it is written as among them. -/
theorem lists_read_exactly (table : String) :
    (∀ fields, Reads table fields (ofFields table fields)) ∧
    ∀ e : ChangeEvent, e.id.table = table → (e.op = .del → e.row = .empty) →
      ofFields table e.toFields = .ok e ∧
        ∀ fields, Lists e fields → ofFields table fields = .ok e := by
  refine ⟨reads_ofFields table, ?_⟩
  rintro e rfl hdel
  refine ⟨(lists_toFields e).ofFields_eq hdel, ?_⟩
  intro fields hlists
  exact hlists.ofFields_eq hdel

/-- Two fields, the later one first, under another name of the operation. -/
theorem lists_read_exactly_turned :
    Lists (.set ⟨"FEATURE", "ntp"⟩ (.ofList [("auto_restart", "enabled"), ("state", "disabled")]))
        ["ntp", "hset", "state", "disabled", "auto_restart", "enabled"] ∧
      ofFields "FEATURE" ["ntp", "hset", "state", "disabled", "auto_restart", "enabled"] =
        .ok (.set ⟨"FEATURE", "ntp"⟩
          (.ofList [("auto_restart", "enabled"), ("state", "disabled")])) := by
  have hlists : Lists
      (.set ⟨"FEATURE", "ntp"⟩ (.ofList [("auto_restart", "enabled"), ("state", "disabled")]))
      ["ntp", "hset", "state", "disabled", "auto_restart", "enabled"] :=
    ⟨"hset", by decide, [("state", "disabled"), ("auto_restart", "enabled")], .swap _ _ _, rfl⟩
  refine ⟨hlists, ((lists_read_exactly "FEATURE").2 _ rfl ?_).2 _ hlists⟩
  intro h
  cases h

end ChangeEvent

end Converge
