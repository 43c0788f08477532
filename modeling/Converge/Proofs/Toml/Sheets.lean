import Converge.Proofs.Toml.Values

/-!
# Sheets read back from settings files

A sheet that is in order, with plain names of which none comes twice and numbers of 64 bits, is read
back from its text.

* `SheetInOrder`: the sheets that have a text of their own;
* `line?_entry`, `line?_header`: a line comes back; `lines?_tables`: all lines do;
* `putAll?_fields`, `addSections?_tables`: the tables are put together as the sheet means them;
* **`parse?_text`**: the table of the text of a sheet is what the sheet means.
-/

namespace Converge.Toml

open Text (Halts halts_cons takeWhile_run dropWhile_run)

/-! ## 1. Sheets in order -/

/-- A name that needs no quotes. -/
structure PlainName (name : String) : Prop where
  ne_empty : name.toList ≠ []
  plain : ∀ c ∈ name.toList, Reader.isNameChar c = true

instance (name : String) : Decidable (PlainName name) :=
  decidable_of_iff (name.toList ≠ [] ∧ name.toList.all Reader.isNameChar = true)
    ⟨fun h => ⟨h.1, List.all_eq_true.mp h.2⟩, fun h => ⟨h.ne_empty, List.all_eq_true.mpr h.plain⟩⟩

/-- The entries of a section are in order. -/
structure FieldsInOrder (fields : List (String × Plain)) : Prop where
  names : ∀ f ∈ fields, PlainName f.1
  nodup : (fields.map (·.1)).Nodup
  fits : ∀ f ∈ fields, Reader.Fits f.2

/-- A sheet is in order. -/
structure SheetInOrder (sheet : Sheet) : Prop where
  names : ∀ t ∈ sheet, PlainName t.1
  nodup : (sheet.map (·.1)).Nodup
  fields : ∀ t ∈ sheet, FieldsInOrder t.2

/-! ## 2. Lines -/

namespace Reader

variable {fuel : Nat} {rest : Rest}

theorem isBlank_nameChar {c : Char} (h : isNameChar c = true) : Quoting.isBlank c = false := by
  cases hblank : Quoting.isBlank c with
  | false => rfl
  | true =>
    simp only [Quoting.isBlank, Bool.or_eq_true, beq_iff_eq] at hblank
    rcases hblank with rfl | rfl <;> exact absurd h (by decide)

theorem skipBlanks_cons {c : Char} {cs : Rest} (h : Quoting.isBlank c = false) :
    skipBlanks (c :: cs) = c :: cs := by
  simp [skipBlanks, h]

/-- A name without quotes, up to the first sign that belongs to no name. -/
theorem path?_name (fuel : Nat) {name : String} (h : PlainName name) (rest : Rest)
    (hrest : Halts isNameChar rest)
    (hpoint : ∀ more, skipBlanks rest ≠ '.' :: more) :
    path? (fuel + 1) (name.toList ++ rest) = some ([name], skipBlanks rest) := by
  have htake := takeWhile_run h.plain hrest
  have hdrop := dropWhile_run h.plain hrest
  obtain ⟨c, cs, hcs⟩ := List.exists_cons_of_ne_nil h.ne_empty
  have hc : isNameChar c = true := h.plain c (hcs ▸ List.mem_cons_self)
  have hempty : name.toList.isEmpty = false := by rw [hcs]; rfl
  have hname : name? (name.toList ++ rest) = some (name, rest) := by
    unfold name?
    split
    · rename_i heq
      rw [hcs] at heq
      exact absurd ((List.cons.inj heq).1 ▸ hc) (by decide)
    · rename_i heq
      rw [hcs] at heq
      exact absurd ((List.cons.inj heq).1 ▸ hc) (by decide)
    · simp only [htake, hdrop, hempty, Bool.false_eq_true, if_false, String.ofList_toList]
  have hskip : skipBlanks (name.toList ++ rest) = name.toList ++ rest := by
    rw [hcs, List.cons_append, skipBlanks_cons (isBlank_nameChar hc)]
  unfold path?
  rw [hskip, hname]
  simp only

/-- A value is written from a sign on that is no blank. -/
theorem exists_value_eq_cons (v : Plain) :
    ∃ c cs, Writer.value v = c :: cs ∧ Quoting.isBlank c = false := by
  match v with
  | .number n =>
    obtain ⟨d, ds, hcons, hd⟩ := Text.exists_toDigits_eq_cons n
    exact ⟨d, ds, hcons, isBlank_nameChar (by simp [isNameChar, Char.isAlphanum, hd])⟩
  | .text s =>
    obtain ⟨c, cs, hcs, hc⟩ := exists_write_eq_cons s
    exact ⟨c, cs, hcs, by rcases hc with rfl | rfl <;> rfl⟩
  | .texts [] => exact ⟨'[', _, rfl, rfl⟩
  | .texts [_] => exact ⟨'[', _, rfl, rfl⟩
  | .texts (_ :: _ :: _) => exact ⟨'[', _, rfl, rfl⟩

/-- The line of an entry. -/
theorem line?_entry {name : String} {v : Plain} (h : PlainName name) (hv : Fits v) (rest : Rest) :
    line? (Writer.entry name v ++ rest) = some (.entry [name] v.toValue, rest) := by
  have htext : Writer.entry name v ++ rest =
      name.toList ++ ' ' :: '=' :: ' ' :: (Writer.value v ++ '\n' :: rest) := by
    simp [Writer.entry]
  have hpath := path?_name (Writer.entry name v ++ rest).length h
    (' ' :: '=' :: ' ' :: (Writer.value v ++ '\n' :: rest))
    (halts_cons.mpr (by decide)) (fun more heq => absurd (List.cons.inj heq).1 (by decide))
  have hskip : skipBlanks (' ' :: (Writer.value v ++ '\n' :: rest)) =
      Writer.value v ++ '\n' :: rest := by
    obtain ⟨c, cs, hcs, hblank⟩ := exists_value_eq_cons v
    rw [hcs, List.cons_append]
    exact skipBlanks_cons hblank
  have hfuel : (Writer.value v).length + 3 ≤ enough (Writer.value v ++ '\n' :: rest) := by
    rw [enough, List.length_append, List.length_cons]
    omega
  have hvalue := value?_plain hv (show maxDepth ≠ 0 by decide) hfuel rest
  obtain ⟨c, cs, hcs⟩ := List.exists_cons_of_ne_nil h.ne_empty
  have hc : isNameChar c = true := h.plain c (hcs ▸ List.mem_cons_self)
  rw [← htext] at hpath
  unfold line?
  split
  · rename_i heq
    rw [htext, hcs] at heq
    exact absurd ((List.cons.inj heq).1 ▸ hc) (by decide)
  · rename_i heq
    rw [htext, hcs] at heq
    exact absurd ((List.cons.inj heq).1 ▸ hc) (by decide)
  · have hequals : skipBlanks (' ' :: '=' :: ' ' :: (Writer.value v ++ '\n' :: rest)) =
        '=' :: ' ' :: (Writer.value v ++ '\n' :: rest) := rfl
    simp only [hpath, hequals, hskip, hvalue]
    rfl

/-- The line of a header. -/
theorem line?_header {name : String} (h : PlainName name) :
    line? ('[' :: (name.toList ++ ']' :: '\n' :: rest)) = some (.header (.table [name]), rest) := by
  have hpath := path?_name (name.toList ++ ']' :: '\n' :: rest).length h
    (']' :: '\n' :: rest) (halts_cons.mpr (by decide))
    (fun more heq => absurd (List.cons.inj heq).1 (by decide))
  obtain ⟨c, cs, hcs⟩ := List.exists_cons_of_ne_nil h.ne_empty
  have hc : isNameChar c = true := h.plain c (hcs ▸ List.mem_cons_self)
  unfold line?
  split
  · rename_i heq
    rw [hcs] at heq
    exact absurd ((List.cons.inj (List.cons.inj heq).2).1 ▸ hc) (by decide)
  · rename_i heq
    rw [← (List.cons.inj heq).2, hpath]
    rfl
  · rename_i hno
    exact absurd rfl (hno _)

/-! ## 3. All lines -/

def entryLine (f : String × Plain) : Line := .entry [f.1] f.2.toValue

/-- The lines of a section. -/
def tableLines (t : String × List (String × Plain)) : List Line :=
  .header (.table [t.1]) :: t.2.map entryLine

theorem lines?_cons {cs : Rest} {l : Line} (hgaps : skipGaps? false cs = some cs)
    (hline : line? cs = some (l, rest)) (hne : cs ≠ []) :
    lines? (fuel + 1) cs = (lines? fuel rest).map (l :: ·) := by
  obtain ⟨c, cs, rfl⟩ := List.exists_cons_of_ne_nil hne
  rw [lines?, hgaps]
  simp only [hline]

theorem lines?_newline (cs : Rest) : lines? fuel ('\n' :: cs) = lines? fuel cs := by
  cases fuel with
  | zero => rfl
  | succ fuel => rfl

theorem skipGaps?_nameChar {c : Char} (h : isNameChar c = true) (cs : Rest) :
    skipGaps? false (c :: cs) = some (c :: cs) := by
  have hblank := isBlank_nameChar h
  have hmark : c ≠ '#' := by
    rintro rfl
    exact absurd h (by decide)
  unfold skipGaps?
  split
  · rename_i heq
    cases heq
  · rename_i heq
    exact absurd ((List.cons.inj heq).1 ▸ h) (by decide)
  · rename_i heq
    exact absurd ((List.cons.inj heq).1 ▸ h) (by decide)
  · rename_i heq
    obtain ⟨rfl, rfl⟩ := List.cons.inj heq
    simp [hblank, hmark]

/-- The text of the entries of a section. -/
def fieldsText (fields : List (String × Plain)) : Rest := fields.flatMap fun f => Writer.entry f.1 f.2

theorem lines?_fields : ∀ {fields : List (String × Plain)}, FieldsInOrder fields → ∀ (more : Rest),
    lines? (fields.length + fuel) (fieldsText fields ++ more) =
      (lines? fuel more).map (fields.map entryLine ++ ·)
  | [], _, more => by simp [fieldsText]
  | f :: fields, h, more => by
    have hname := h.names f List.mem_cons_self
    have hfields : FieldsInOrder fields :=
      ⟨fun x hx => h.names x (List.mem_cons_of_mem _ hx), (List.nodup_cons.mp h.nodup).2,
        fun x hx => h.fits x (List.mem_cons_of_mem _ hx)⟩
    have ih := lines?_fields hfields more
    have htext : fieldsText (f :: fields) ++ more =
        Writer.entry f.1 f.2 ++ (fieldsText fields ++ more) := by
      simp [fieldsText]
    have hline := line?_entry hname (h.fits f List.mem_cons_self) (fieldsText fields ++ more)
    obtain ⟨c, cs, hcs⟩ := List.exists_cons_of_ne_nil hname.ne_empty
    have hgaps : skipGaps? false (Writer.entry f.1 f.2 ++ (fieldsText fields ++ more)) =
        some (Writer.entry f.1 f.2 ++ (fieldsText fields ++ more)) := by
      rw [Writer.entry, hcs]
      exact skipGaps?_nameChar (hname.plain c (hcs ▸ List.mem_cons_self)) _
    rw [htext, List.length_cons, Nat.add_right_comm, lines?_cons hgaps hline (by
      rw [Writer.entry, hcs]
      exact List.cons_ne_nil _ _), ih]
    simp [Function.comp_def, entryLine]

theorem lines?_table (fuel : Nat) {t : String × List (String × Plain)} (hname : PlainName t.1)
    (h : FieldsInOrder t.2) (more : Rest) :
    lines? ((tableLines t).length + fuel) (Writer.table t.1 t.2 ++ more) =
      (lines? fuel more).map (tableLines t ++ ·) := by
  have htext : Writer.table t.1 t.2 ++ more =
      '[' :: (t.1.toList ++ ']' :: '\n' :: (fieldsText t.2 ++ more)) := by
    change (['['] ++ t.1.toList ++ [']', '\n'] ++ fieldsText t.2) ++ more = _
    simp
  have hlength : (tableLines t).length + fuel = t.2.length + fuel + 1 := by
    simp [tableLines, Nat.add_right_comm]
  rw [htext, hlength, lines?_cons rfl (line?_header hname) (List.cons_ne_nil _ _),
    lines?_fields h more]
  simp [Function.comp_def, tableLines]

/-- **All lines of a sheet come back.** -/
theorem lines?_tables (fuel : Nat) : ∀ {sheet : Sheet}, (∀ t ∈ sheet, PlainName t.1) →
    (∀ t ∈ sheet, FieldsInOrder t.2) →
    lines? ((sheet.flatMap tableLines).length + (fuel + 1)) (Writer.tables sheet) =
      some (sheet.flatMap tableLines)
  | [], _, _ => rfl
  | [t], hnames, hfields => by
    have htable := lines?_table (fuel + 1) (hnames t (by simp)) (hfields t (by simp)) []
    have hend : lines? (fuel + 1) [] = some [] := rfl
    rw [hend, Option.map_some, List.append_nil, List.append_nil] at htable
    rw [List.flatMap_singleton]
    exact htable
  | t :: u :: sheet, hnames, hfields => by
    have ih := lines?_tables fuel (List.forall_mem_cons.mp hnames).2 (List.forall_mem_cons.mp hfields).2
    have htable := lines?_table (((u :: sheet).flatMap tableLines).length + (fuel + 1))
      (hnames t (by simp)) (hfields t (by simp)) ('\n' :: Writer.tables (u :: sheet))
    rw [lines?_newline, ih] at htable
    have htext : Writer.tables (t :: u :: sheet) =
        Writer.table t.1 t.2 ++ '\n' :: Writer.tables (u :: sheet) := by
      change Writer.table t.1 t.2 ++ ['\n'] ++ Writer.tables (u :: sheet) = _
      simp
    rw [htext, List.flatMap_cons, List.length_append, Nat.add_assoc, htable]
    rfl

/-! ## 4. Sections -/

/-- An entry as sections have it. -/
def entryOf (f : String × Plain) : List String × Value := ([f.1], f.2.toValue)

theorem sections_fields (h : Header) (ls : List Line) : ∀ (fields : List (String × Plain))
    (done : List (List String × Value)),
    sections h done (fields.map entryLine ++ ls) =
      sections h ((fields.map entryOf).reverse ++ done) ls
  | [], _ => rfl
  | f :: fields, done => by
    rw [List.map_cons, List.cons_append, entryLine, sections, sections_fields h ls fields]
    simp [entryOf]

theorem sections_tables : ∀ (sheet : Sheet) (h : Header) (done : List (List String × Value)),
    sections h done (sheet.flatMap tableLines) =
      ⟨h, done.reverse⟩ :: sheet.map fun t => ⟨.table [t.1], t.2.map entryOf⟩
  | [], _, _ => rfl
  | t :: sheet, h, done => by
    rw [List.flatMap_cons, tableLines, List.cons_append, sections, sections_fields,
      sections_tables sheet]
    simp

end Reader

/-! ## 5. Tables -/

namespace Nodes

theorem get?_eq_none {ns : Nodes} {name : String} (h : name ∉ ns.map (·.1)) : ns.get? name = none := by
  have hfind : ns.find? (fun e => e.1 == name) = none := by
    rw [List.find?_eq_none]
    intro e he hname
    exact h (List.mem_map.mpr ⟨e, he, by simpa using hname⟩)
  rw [get?, hfind]
  rfl

/-- Entries with different names are put into a table in their order. -/
theorem putAll?_fields : ∀ (fields : List (String × Plain)) (ns : Nodes),
    (ns.map (·.1) ++ fields.map (·.1)).Nodup →
    putAll? ns (fields.map Reader.entryOf) =
      some (ns ++ fields.map fun f => (f.1, .value f.2.toValue))
  | [], ns, _ => by simp [putAll?]
  | f :: fields, ns, h => by
    have hnew : f.1 ∉ ns.map (·.1) := by
      intro hmem
      exact (List.nodup_append.mp h).2.2 _ hmem _ (by simp) rfl
    have hadd : (ns.add f.1 (.value f.2.toValue)).map (·.1) ++ fields.map (·.1) =
        ns.map (·.1) ++ (f :: fields).map (·.1) := by
      simp [add]
    rw [List.map_cons, Reader.entryOf, putAll?, put?, get?_eq_none hnew]
    simp only [Option.isSome_none, Bool.false_eq_true, if_false, Option.bind_some]
    rw [putAll?_fields fields _ (hadd ▸ h)]
    simp [add]

/-- The table of a section. -/
def tableOf (fields : List (String × Plain)) : Node :=
  .table .header (fields.map fun f => (f.1, .value f.2.toValue))

/-- Sections with different names are put into a file in their order. -/
theorem addSections?_tables : ∀ (sheet : Sheet) (ns : Nodes),
    (ns.map (·.1) ++ sheet.map (·.1)).Nodup → (∀ t ∈ sheet, FieldsInOrder t.2) →
    addSections? ns (sheet.map fun t => ⟨.table [t.1], t.2.map Reader.entryOf⟩) =
      some (ns ++ sheet.map fun t => (t.1, tableOf t.2))
  | [], ns, _, _ => by simp [addSections?]
  | t :: sheet, ns, h, hfields => by
    have hnew : t.1 ∉ ns.map (·.1) := by
      intro hmem
      exact (List.nodup_append.mp h).2.2 _ hmem _ (by simp) rfl
    have hadd : (ns.add t.1 (tableOf t.2)).map (·.1) ++ sheet.map (·.1) =
        ns.map (·.1) ++ (t :: sheet).map (·.1) := by
      simp [add]
    have hput := putAll?_fields t.2 [] (by simpa using (hfields t List.mem_cons_self).nodup)
    have hsection : ns.addSection? ⟨.table [t.1], t.2.map Reader.entryOf⟩ =
        some (ns.add t.1 (tableOf t.2)) := by
      simp only [addSection?, walk?, openTable?, get?_eq_none hnew, hput]
      rfl
    rw [List.map_cons, addSections?, hsection, Option.bind_some,
      addSections?_tables sheet _ (hadd ▸ h) fun x hx => hfields x (List.mem_cons_of_mem _ hx)]
    simp [add]

end Nodes

theorem entriesOf_values (fields : List (String × Plain)) :
    entriesOf (fields.map fun f => (f.1, .value f.2.toValue)) =
      fields.map fun f => (f.1, f.2.toValue) := by
  induction fields with
  | nil => rfl
  | cons f fields ih => rw [List.map_cons, List.map_cons, entriesOf, ih, Node.toValue]

theorem entriesOf_tables (sheet : Sheet) :
    entriesOf (sheet.map fun t => (t.1, Nodes.tableOf t.2)) = sheet.entries := by
  induction sheet with
  | nil => rfl
  | cons t sheet ih =>
    rw [List.map_cons, entriesOf, ih, Nodes.tableOf, Node.toValue, entriesOf_values]
    rfl

/-! ## 6. Files -/

theorem length_tableLines (t : String × List (String × Plain)) :
    (Reader.tableLines t).length ≤ (Writer.table t.1 t.2).length := by
  have hfields : ∀ fields : List (String × Plain),
      fields.length ≤ (Reader.fieldsText fields).length := by
    intro fields
    induction fields with
    | nil => exact Nat.le_refl 0
    | cons f fields ih =>
      have hentry : 1 ≤ (Writer.entry f.1 f.2).length := by
        simp [Writer.entry]
        omega
      rw [Reader.fieldsText, List.flatMap_cons, List.length_append, List.length_cons]
      exact Nat.add_comm 1 _ ▸ Nat.add_le_add hentry ih
  have ht := hfields t.2
  change _ ≤ (['['] ++ t.1.toList ++ [']', '\n'] ++ Reader.fieldsText t.2).length
  simp only [Reader.tableLines, List.length_cons, List.length_map, List.length_append]
  omega

theorem length_sheetLines : ∀ sheet : Sheet,
    (sheet.flatMap Reader.tableLines).length ≤ (Writer.tables sheet).length
  | [] => Nat.le_refl 0
  | [t] => by
    rw [List.flatMap_singleton]
    exact length_tableLines t
  | t :: u :: sheet => by
    have ih := length_sheetLines (u :: sheet)
    have ht := length_tableLines t
    change _ ≤ (Writer.table t.1 t.2 ++ ['\n'] ++ Writer.tables (u :: sheet)).length
    rw [List.flatMap_cons]
    simp only [List.length_append] at ih ⊢
    omega

/-- A sheet begins with no mark of the byte order. -/
theorem dropMark_tables (sheet : Sheet) :
    Reader.dropMark (Writer.tables sheet) = Writer.tables sheet := by
  match sheet with
  | [] => rfl
  | [t] => rfl
  | t :: u :: sheet => rfl

/-- **The table of the text of a sheet is what the sheet means.** -/
theorem parse?_text {sheet : Sheet} (h : SheetInOrder sheet) :
    parse? sheet.text = some sheet.entries := by
  have hlength := length_sheetLines sheet
  have hlines := Reader.lines?_tables
    ((Writer.tables sheet).length - (sheet.flatMap Reader.tableLines).length) h.names h.fields
  have hfuel : (sheet.flatMap Reader.tableLines).length +
      ((Writer.tables sheet).length - (sheet.flatMap Reader.tableLines).length + 1) =
        (Writer.tables sheet).length + 1 := by omega
  rw [hfuel] at hlines
  have hsections := Nodes.addSections?_tables sheet [] (by simpa using h.nodup) h.fields
  have htop : addSections? [] (⟨.top, [].reverse⟩ ::
      sheet.map fun t => ⟨.table [t.1], t.2.map Reader.entryOf⟩) =
        some (sheet.map fun t => (t.1, Nodes.tableOf t.2)) := by
    rw [addSections?, Nodes.addSection?, List.reverse_nil, Nodes.putAll?, Option.bind_some, hsections,
      List.nil_append]
  unfold parse? Sheet.text
  simp only [String.toList_ofList, dropMark_tables, hlines, Option.bind_some, Reader.sections_tables]
  rw [assemble?, htop, Option.map_some, entriesOf_tables]

end Converge.Toml
