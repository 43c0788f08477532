import Converge.Config.File
import Converge.Proofs.Files.Atomic
import Converge.Proofs.Text.Encoding
import Converge.Proofs.Toml.Sheets

/-!
# Settings that come back from their files

Settings are saved with every section and every field. Of a file that keeps only a part of them, what
is left out comes back as its default, and nothing else changes.

* `Choice`: which sections and fields a file keeps; `cut`: the sheet that is left; `kept`: the settings
  that it stands for, field by field;
* `field_kept`: one field of a section of which a part is kept; `section?_cut`: one section;
* **`settings_come_back`**: saved settings are loaded as they were, and settings of which a part was
  kept as that part and defaults.
-/

namespace Converge

open Toml (Plain Sheet Value Entries SheetInOrder FieldsInOrder PlainName)

/-! ## 1. What a file keeps -/

/-- Which sections a file keeps, and which fields of them. -/
structure Choice where
  hasSection : String → Bool
  hasField : String → String → Bool

namespace Choice

/-- The field is there: its section is, and it is in its section. -/
def has (k : Choice) (name field : String) : Bool := k.hasSection name && k.hasField name field

/-- Everything is there. -/
def all : Choice := ⟨fun _ => true, fun _ _ => true⟩

/-- What is left of a sheet. -/
def cut (k : Choice) (sheet : Sheet) : Sheet :=
  (sheet.filter fun t => k.hasSection t.1).map fun t =>
    (t.1, t.2.filter fun f => k.hasField t.1 f.1)

end Choice

/-! ## 2. Settings of which a part is kept -/

/-- The section with the fields that are there, and defaults for the others. -/
def StoreConfig.kept (has : String → Bool) (c : StoreConfig) : StoreConfig :=
  let d : StoreConfig := {}
  { host := if has "redis_host" then c.host else d.host
    port := if has "redis_port" then c.port else d.port
    configDb := if has "config_db_number" then c.configDb else d.configDb
    statusDb := if has "state_db_number" then c.statusDb else d.statusDb }

def LoopConfig.kept (has : String → Bool) (c : LoopConfig) : LoopConfig :=
  let d : LoopConfig := {}
  { selectTimeoutMs := if has "select_timeout_ms" then c.selectTimeoutMs else d.selectTimeoutMs
    backoffInitialMs := if has "backoff_initial_ms" then c.backoffInitialMs else d.backoffInitialMs
    backoffMaxMs := if has "backoff_max_ms" then c.backoffMaxMs else d.backoffMaxMs
    resyncIntervalSecs :=
      if has "resync_interval_secs" then c.resyncIntervalSecs else d.resyncIntervalSecs }

def ExecutorConfig.kept (has : String → Bool) (c : ExecutorConfig) : ExecutorConfig :=
  let d : ExecutorConfig := {}
  { commandTimeoutSecs :=
      if has "command_timeout_secs" then c.commandTimeoutSecs else d.commandTimeoutSecs
    maxParallel := if has "max_parallel" then c.maxParallel else d.maxParallel
    commandPrefix := if has "command_prefix" then c.commandPrefix else d.commandPrefix
    systemctlPath := if has "systemctl_path" then c.systemctlPath else d.systemctlPath
    iptablesPath := if has "iptables_path" then c.iptablesPath else d.iptablesPath }

def FeatureSection.kept (has : String → Bool) (c : FeatureSection) : FeatureSection :=
  let d : FeatureSection := {}
  { unitDir := if has "systemd_dir" then c.unitDir else d.unitDir
    chips := if has "num_asics" then c.chips else d.chips }

def BmpSection.kept (has : String → Bool) (c : BmpSection) : BmpSection :=
  let d : BmpSection := {}
  { unit := if has "bmp_unit" then c.unit else d.unit }

def CommonConfig.kept (k : Choice) (c : CommonConfig) : CommonConfig where
  store := c.store.kept (k.has "store")
  loop := c.loop.kept (k.has "daemon")
  executor := c.executor.kept (k.has "executor")

def FeatureConfig.kept (k : Choice) (c : FeatureConfig) : FeatureConfig where
  common := c.common.kept k
  own := c.own.kept (k.has "featured")

def BmpConfig.kept (k : Choice) (c : BmpConfig) : BmpConfig where
  common := c.common.kept k
  own := c.own.kept (k.has "bmpcfgd")

namespace Config

open Files (Tree)

/-- How settings of a kind are written and read. -/
structure Form (α : Type) where
  sheet : α → Sheet
  read : Entries → Option α
  default : α
  kept : Choice → α → α

def commonForm : Form CommonConfig :=
  ⟨CommonConfig.sheet, CommonConfig.ofEntries?, {}, CommonConfig.kept⟩

def featureForm : Form FeatureConfig :=
  ⟨FeatureConfig.sheet, FeatureConfig.ofEntries?, {}, FeatureConfig.kept⟩

def bmpForm : Form BmpConfig := ⟨BmpConfig.sheet, BmpConfig.ofEntries?, {}, BmpConfig.kept⟩

/-- Settings of the kind come back from their files. -/
structure ComesBack {α : Type} (form : Form α) : Prop where
  /-- What was saved is loaded. -/
  saved : ∀ (c : α) {files files' : Tree} {path : String},
    save (form.sheet c) files path = .ok files' →
      load form.read form.default files' path = .ok c
  /-- Where a part was left out, its defaults are loaded, and the rest as it was. -/
  cut : ∀ (k : Choice) (c : α) {files files' : Tree} {path : String},
    save (k.cut (form.sheet c)) files path = .ok files' →
      load form.read form.default files' path = .ok (form.kept k c)
  /-- The same, however the file is laid out: with comments, empty lines, other quotes. -/
  laidOut : ∀ (k : Choice) (c : α) {files : Tree} {path text : String},
    files.readText path = .ok text → Toml.parse? text = some (k.cut (form.sheet c)).entries →
      load form.read form.default files path = .ok (form.kept k c)

/-! ## 3. Fields -/

theorem get?_cons (e : String × Value) (es : Entries) (name : String) :
    Entries.get? (e :: es) name = if e.1 == name then some e.2 else es.get? name := by
  unfold Entries.get?
  rw [List.find?_cons]
  cases e.1 == name <;> rfl

/-- The values of entries. -/
def valuesOf (fields : List (String × Plain)) : Entries := fields.map fun f => (f.1, f.2.toValue)

variable {has : String → Bool}

/-- A field is there exactly if it is kept. -/
theorem get?_filter (field : String) : ∀ fields : List (String × Plain),
    (valuesOf (fields.filter fun f => has f.1)).get? field =
      if has field then (valuesOf fields).get? field else none
  | [] => by
    cases has field <;> rfl
  | f :: fields => by
    have ih := get?_filter field fields
    rw [List.filter_cons]
    by_cases hf : f.1 = field
    · subst hf
      cases hkept : has f.1 with
      | false =>
        rw [hkept] at ih
        exact ih
      | true => simp [valuesOf, get?_cons]
    · have hskip : ∀ fields, (valuesOf (f :: fields)).get? field = (valuesOf fields).get? field := by
        intro fields
        rw [valuesOf, List.map_cons, get?_cons, if_neg (by simpa using hf)]
        rfl
      rw [hskip, ← ih]
      cases has f.1 with
      | false => rfl
      | true => exact hskip _

/-- The fields of a section of which a part is kept. -/
def keptFields (has : String → Bool) (fields : List (String × Plain)) : Fields :=
  fun field _ => (valuesOf (fields.filter fun f => has f.1)).get? field

/-- **A field is read as it was if it is kept, and is its default otherwise.** -/
theorem field_kept {α : Type} {name : String} {fields : List (String × Plain)} {place : Nat}
    {read : Value → Option α} {x default : α} (v : Value)
    (hget : (valuesOf fields).get? name = some v) (hread : read v = some x) :
    field (keptFields has fields) name place read default =
      some (if has name then x else default) := by
  unfold field keptFields
  rw [get?_filter, hget]
  cases has name with
  | false => rfl
  | true => exact hread

theorem texts?_strs (l : List String) : texts? (.arr (l.map .str)) = some l := by
  have hall : ∀ l : List String, (l.map Value.str).mapM text? = some l := by
    intro l
    induction l with
    | nil => rfl
    | cons s l ih => simp [text?, ih]
  exact hall l

theorem below?_cast {n bound : Nat} (h : n < bound) : below? bound (.int n) = some n := by
  rw [below?, if_pos (by simpa using h), Int.toNat_natCast]

theorem word16?_toNat (n : UInt16) : word16? (.int n.toNat) = some n := by
  rw [word16?, below?_cast n.toNat_lt, Option.map_some]
  exact congrArg some UInt16.ofNat_toNat

theorem word32?_toNat (n : UInt32) : word32? (.int n.toNat) = some n := by
  rw [word32?, below?_cast n.toNat_lt, Option.map_some]
  exact congrArg some UInt32.ofNat_toNat

theorem word64?_toNat (n : UInt64) : word64? (.int n.toNat) = some n := by
  rw [word64?, below?_cast n.toNat_lt, Option.map_some]
  exact congrArg some UInt64.ofNat_toNat

/-! ## 4. Sections -/

theorem store?_kept (c : StoreConfig) : store? (keptFields has c.fields) = some (c.kept has) := by
  have hhost : field (keptFields has c.fields) "redis_host" 0 text? ({} : StoreConfig).host =
      some (c.kept has).host := field_kept (.str c.host) rfl rfl
  have hport : field (keptFields has c.fields) "redis_port" 1 word16? ({} : StoreConfig).port =
      some (c.kept has).port := field_kept (.int c.port.toNat) rfl (word16?_toNat _)
  have hconfig : field (keptFields has c.fields) "config_db_number" 2 word32?
      ({} : StoreConfig).configDb = some (c.kept has).configDb :=
    field_kept (.int c.configDb.toNat) rfl (word32?_toNat _)
  have hstatus : field (keptFields has c.fields) "state_db_number" 3 word32?
      ({} : StoreConfig).statusDb = some (c.kept has).statusDb :=
    field_kept (.int c.statusDb.toNat) rfl (word32?_toNat _)
  unfold store?
  simp only
  rw [hhost, hport, hconfig, hstatus]
  rfl

theorem loop?_kept (c : LoopConfig) : loop? (keptFields has c.fields) = some (c.kept has) := by
  have hselect : field (keptFields has c.fields) "select_timeout_ms" 0 word64?
      ({} : LoopConfig).selectTimeoutMs = some (c.kept has).selectTimeoutMs :=
    field_kept (.int c.selectTimeoutMs.toNat) rfl (word64?_toNat _)
  have hinitial : field (keptFields has c.fields) "backoff_initial_ms" 1 word64?
      ({} : LoopConfig).backoffInitialMs = some (c.kept has).backoffInitialMs :=
    field_kept (.int c.backoffInitialMs.toNat) rfl (word64?_toNat _)
  have hmax : field (keptFields has c.fields) "backoff_max_ms" 2 word64?
      ({} : LoopConfig).backoffMaxMs = some (c.kept has).backoffMaxMs :=
    field_kept (.int c.backoffMaxMs.toNat) rfl (word64?_toNat _)
  have hresync : field (keptFields has c.fields) "resync_interval_secs" 3 word64?
      ({} : LoopConfig).resyncIntervalSecs = some (c.kept has).resyncIntervalSecs :=
    field_kept (.int c.resyncIntervalSecs.toNat) rfl (word64?_toNat _)
  unfold loop?
  simp only
  rw [hselect, hinitial, hmax, hresync]
  rfl

theorem executor?_kept (c : ExecutorConfig) :
    executor? (keptFields has c.fields) = some (c.kept has) := by
  have htimeout : field (keptFields has c.fields) "command_timeout_secs" 0 word64?
      ({} : ExecutorConfig).commandTimeoutSecs = some (c.kept has).commandTimeoutSecs :=
    field_kept (.int c.commandTimeoutSecs.toNat) rfl (word64?_toNat _)
  have hparallel : field (keptFields has c.fields) "max_parallel" 1 word64?
      ({} : ExecutorConfig).maxParallel = some (c.kept has).maxParallel :=
    field_kept (.int c.maxParallel.toNat) rfl (word64?_toNat _)
  have hprefix : field (keptFields has c.fields) "command_prefix" 2 texts?
      ({} : ExecutorConfig).commandPrefix = some (c.kept has).commandPrefix :=
    field_kept (.arr (c.commandPrefix.map .str)) rfl (texts?_strs _)
  have hsystemctl : field (keptFields has c.fields) "systemctl_path" 3 text?
      ({} : ExecutorConfig).systemctlPath = some (c.kept has).systemctlPath :=
    field_kept (.str c.systemctlPath) rfl rfl
  have hiptables : field (keptFields has c.fields) "iptables_path" 4 text?
      ({} : ExecutorConfig).iptablesPath = some (c.kept has).iptablesPath :=
    field_kept (.str c.iptablesPath) rfl rfl
  unfold executor?
  simp only
  rw [htimeout, hparallel, hprefix, hsystemctl, hiptables]
  rfl

/-- The entries of the own section of the daemon of the features. -/
def featureFields (c : FeatureSection) : List (String × Plain) :=
  [("systemd_dir", .text c.unitDir), ("num_asics", .number c.chips.toNat)]

theorem feature?_kept (c : FeatureSection) :
    feature? (keptFields has (featureFields c)) = some (c.kept has) := by
  have hdir : field (keptFields has (featureFields c)) "systemd_dir" 0 text?
      ({} : FeatureSection).unitDir = some (c.kept has).unitDir :=
    field_kept (.str c.unitDir) rfl rfl
  have hchips : field (keptFields has (featureFields c)) "num_asics" 1 word64?
      ({} : FeatureSection).chips = some (c.kept has).chips :=
    field_kept (.int c.chips.toNat) rfl (word64?_toNat _)
  unfold feature?
  simp only
  rw [hdir, hchips]
  rfl

theorem bmp?_kept (c : BmpSection) :
    bmp? (keptFields has [("bmp_unit", .text c.unit)]) = some (c.kept has) := by
  have hunit : field (keptFields has [("bmp_unit", .text c.unit)]) "bmp_unit" 0 text?
      ({} : BmpSection).unit = some (c.kept has).unit := field_kept (.str c.unit) rfl rfl
  unfold bmp?
  simp only
  rw [hunit]
  rfl

variable {k : Choice} {name : String}

/-- A section is there exactly if it is kept, and then with the fields that are kept. -/
theorem get?_cut : ∀ sheet : Sheet, (k.cut sheet).entries.get? name =
    if k.hasSection name then
      (sheet.find? fun t => t.1 == name).map fun t =>
        .table (valuesOf (t.2.filter fun f => k.hasField t.1 f.1))
    else none
  | [] => by
    cases k.hasSection name <;> rfl
  | t :: sheet => by
    have ih := get?_cut sheet
    have hcut : (k.cut (t :: sheet)).entries =
        if k.hasSection t.1 then
          (t.1, .table (valuesOf (t.2.filter fun f => k.hasField t.1 f.1))) :: (k.cut sheet).entries
        else (k.cut sheet).entries := by
      rw [Choice.cut, List.filter_cons]
      cases k.hasSection t.1 <;> rfl
    rw [hcut, List.find?_cons]
    by_cases ht : t.1 = name
    · subst ht
      cases hkept : k.hasSection t.1 with
      | false =>
        rw [hkept] at ih
        exact ih
      | true => simp [get?_cons]
    · have hne : (t.1 == name) = false := beq_eq_false_iff_ne.mpr ht
      rw [hne]
      simp only
      rw [← ih]
      cases k.hasSection t.1 with
      | false => rfl
      | true =>
        rw [if_pos rfl, get?_cons, hne]
        rfl

/-- **A section is read with the fields that are there, and is the default one if it is left out.** -/
theorem section?_cut {α : Type} {narrow : Bool} {sheet : Sheet} {size : Nat}
    {read : Fields → Option α} {default : α} {fields : List (String × Plain)}
    (kept : (String → Bool) → α)
    (hfind : sheet.find? (fun t => t.1 == name) = some (name, fields))
    (hread : ∀ has, read (keptFields has fields) = some (kept has))
    (hdefault : kept (fun _ => false) = default) :
    Config.section? narrow (k.cut sheet).entries name size read default = some (kept (k.has name)) := by
  unfold section?
  rw [get?_cut, hfind]
  cases hkept : k.hasSection name with
  | false =>
    have hhas : k.has name = fun _ => false := by
      funext f
      simp [Choice.has, hkept]
    rw [hhas, hdefault]
    rfl
  | true =>
    have hhas : k.has name = k.hasField name := by
      funext f
      simp [Choice.has, hkept]
    rw [hhas]
    exact hread _

/-! ## 5. Settings -/

theorem shared?_cut (narrow : Bool) (c : CommonConfig) (own : Sheet) :
    shared? narrow (k.cut (c.sheet ++ own)).entries = some (c.kept k) := by
  have hstore : section? narrow (k.cut (c.sheet ++ own)).entries "store" 4 store? {} =
      some (c.kept k).store :=
    Config.section?_cut c.store.kept rfl (fun _ => store?_kept c.store) rfl
  have hloop : section? narrow (k.cut (c.sheet ++ own)).entries "daemon" 4 loop? {} =
      some (c.kept k).loop :=
    Config.section?_cut c.loop.kept rfl (fun _ => loop?_kept c.loop) rfl
  have hexecutor : section? narrow (k.cut (c.sheet ++ own)).entries "executor" 5 executor? {} =
      some (c.kept k).executor :=
    Config.section?_cut c.executor.kept rfl (fun _ => executor?_kept c.executor) rfl
  unfold shared?
  rw [hstore, hloop, hexecutor]
  rfl

/-- The numbers in a sheet fit 64 bits, so its entries pass the narrow gate. -/
theorem isNarrow_of_fits {v : Plain} (h : Toml.Reader.Fits v) : v.toValue.isNarrow = true := by
  match v with
  | .number n =>
    have hlow : (-0x8000000000000000 : Int) ≤ n := Int.le_trans (by decide) (Int.natCast_nonneg n)
    have hhigh : (n : Int) < 0x10000000000000000 := Int.ofNat_lt.mpr h
    rw [Plain.toValue, Value.isNarrow, decide_eq_true hlow, decide_eq_true hhigh]
    rfl
  | .text s => rfl
  | .texts l =>
    have hall : ∀ l : List String, Toml.allNarrow (l.map .str) = true := by
      intro l
      induction l with
      | nil => rfl
      | cons s l ih => rw [List.map_cons, Toml.allNarrow, ih]; rfl
    exact hall l

theorem entriesNarrow_iff : ∀ es : Entries,
    Toml.entriesNarrow es = true ↔ ∀ e ∈ es, e.2.isNarrow = true
  | [] => by simp [Toml.entriesNarrow]
  | e :: es => by simp [Toml.entriesNarrow, entriesNarrow_iff es]

theorem narrowBut_entries {sheet : Sheet} (h : SheetInOrder sheet) (own : String) :
    narrowBut own sheet.entries = true := by
  unfold narrowBut
  rw [entriesNarrow_iff]
  intro e he
  obtain ⟨t, ht, rfl⟩ := List.mem_map.mp (List.mem_of_mem_filter he)
  change Toml.entriesNarrow (valuesOf t.2) = true
  rw [entriesNarrow_iff]
  intro e he
  obtain ⟨f, hf, rfl⟩ := List.mem_map.mp he
  exact isNarrow_of_fits ((h.fields t ht).fits f hf)

/-- The shared settings and a section of a daemon's own. -/
theorem withOwn?_cut {α β : Type} {c : CommonConfig} {size : Nat} {read : Fields → Option α}
    {default : α} {fields : List (String × Plain)} (build : CommonConfig → α → β)
    (kept : (String → Bool) → α) (horder : SheetInOrder (k.cut (c.sheet ++ [(name, fields)])))
    (hfind : (c.sheet ++ [(name, fields)]).find? (fun t => t.1 == name) = some (name, fields))
    (hread : ∀ has, read (keptFields has fields) = some (kept has))
    (hdefault : kept (fun _ => false) = default) :
    withOwn? name size read default build (k.cut (c.sheet ++ [(name, fields)])).entries =
      some (build (c.kept k) (kept (k.has name))) := by
  unfold withOwn?
  rw [if_pos (narrowBut_entries horder name), shared?_cut,
    Config.section?_cut kept hfind hread hdefault]
  rfl

/-! ## 6. Sheets in order -/

/-- What is left of a sheet in order is in order. -/
theorem sheetInOrder_cut {sheet : Sheet} (h : SheetInOrder sheet) (k : Choice) :
    SheetInOrder (k.cut sheet) := by
  have hnames : (k.cut sheet).map (·.1) = (sheet.filter fun t => k.hasSection t.1).map (·.1) := by
    rw [Choice.cut, List.map_map]
    rfl
  refine ⟨fun _ hmem => ?_, ?_, fun _ hmem => ?_⟩
  · obtain ⟨t, ht, rfl⟩ := List.mem_map.mp hmem
    exact h.names t (List.mem_of_mem_filter ht)
  · rw [hnames]
    exact h.nodup.sublist (List.filter_sublist.map _)
  · obtain ⟨t, ht, rfl⟩ := List.mem_map.mp hmem
    have hfields := h.fields t (List.mem_of_mem_filter ht)
    exact ⟨fun f hf => hfields.names f (List.mem_of_mem_filter hf),
      hfields.nodup.sublist (List.filter_sublist.map _),
      fun f hf => hfields.fits f (List.mem_of_mem_filter hf)⟩

/-- Entries are in order if the list of their names is, and their numbers fit. -/
theorem fieldsInOrder_of {fields : List (String × Plain)} (names : List String)
    (hnames : fields.map (·.1) = names) (hplain : ∀ n ∈ names, PlainName n) (hnodup : names.Nodup)
    (hfits : ∀ f ∈ fields, Toml.Reader.Fits f.2) : FieldsInOrder fields where
  names _ hf := hplain _ (hnames ▸ List.mem_map_of_mem hf)
  nodup := hnames ▸ hnodup
  fits := hfits

theorem fits_text (s : String) : Toml.Reader.Fits (.text s) := trivial

theorem fits_texts (l : List String) : Toml.Reader.Fits (.texts l) := trivial

theorem fits_word16 (n : UInt16) : Toml.Reader.Fits (.number n.toNat) :=
  Nat.lt_trans n.toNat_lt (by decide)

theorem fits_word32 (n : UInt32) : Toml.Reader.Fits (.number n.toNat) :=
  Nat.lt_trans n.toNat_lt (by decide)

theorem fits_word64 (n : UInt64) : Toml.Reader.Fits (.number n.toNat) := n.toNat_lt

theorem fieldsInOrder_store (c : StoreConfig) : FieldsInOrder c.fields :=
  fieldsInOrder_of ["redis_host", "redis_port", "config_db_number", "state_db_number"] rfl
    (by decide) (by decide)
    (by simp [StoreConfig.fields, fits_text, fits_word16, fits_word32])

theorem fieldsInOrder_loop (c : LoopConfig) : FieldsInOrder c.fields :=
  fieldsInOrder_of
    ["select_timeout_ms", "backoff_initial_ms", "backoff_max_ms", "resync_interval_secs"] rfl
    (by decide) (by decide) (by simp [LoopConfig.fields, fits_word64])

theorem fieldsInOrder_executor (c : ExecutorConfig) : FieldsInOrder c.fields :=
  fieldsInOrder_of
    ["command_timeout_secs", "max_parallel", "command_prefix", "systemctl_path", "iptables_path"] rfl
    (by decide) (by decide) (by simp [ExecutorConfig.fields, fits_text, fits_texts, fits_word64])

theorem fieldsInOrder_feature (c : FeatureSection) : FieldsInOrder (featureFields c) :=
  fieldsInOrder_of ["systemd_dir", "num_asics"] rfl (by decide) (by decide)
    (by simp [featureFields, fits_text, fits_word64])

theorem fieldsInOrder_bmp (c : BmpSection) : FieldsInOrder [("bmp_unit", .text c.unit)] :=
  fieldsInOrder_of ["bmp_unit"] rfl (by decide) (by decide) (by simp [fits_text])

theorem fields_common (c : CommonConfig) : ∀ t ∈ c.sheet, FieldsInOrder t.2 :=
  List.forall_mem_cons.mpr ⟨fieldsInOrder_store c.store, List.forall_mem_cons.mpr
    ⟨fieldsInOrder_loop c.loop, List.forall_mem_cons.mpr
      ⟨fieldsInOrder_executor c.executor, by simp⟩⟩⟩

theorem sheetInOrder_common (c : CommonConfig) : SheetInOrder c.sheet where
  names t ht := by
    have hplain : ∀ n ∈ ["store", "daemon", "executor"], PlainName n := by decide
    exact hplain t.1 (List.mem_map_of_mem (f := (·.1)) ht)
  nodup := show ["store", "daemon", "executor"].Nodup by decide
  fields := fields_common c

theorem sheetInOrder_own {c : CommonConfig} {name : String} {fields : List (String × Plain)}
    (hname : PlainName name) (hnew : name ∉ ["store", "daemon", "executor"])
    (hfields : FieldsInOrder fields) : SheetInOrder (c.sheet ++ [(name, fields)]) where
  names := List.forall_mem_append.mpr ⟨(sheetInOrder_common c).names, by simpa using hname⟩
  nodup := by
    rw [List.map_append]
    refine List.nodup_append.mpr ⟨(sheetInOrder_common c).nodup, by simp, ?_⟩
    rintro a ha b hb rfl
    obtain rfl := List.mem_singleton.mp hb
    exact hnew ha
  fields := List.forall_mem_append.mpr ⟨fields_common c, by simpa using hfields⟩

/-! ## 7. Files -/

/-- A text that was written is there. -/
theorem readText_of_write {files files' : Tree} {path text : String}
    (h : files.write path (Text.encode text) = .ok files') : files'.readText path = .ok text := by
  obtain ⟨dir, name, hwalk, hfree, rfl⟩ := Files.Tree.write_eq_ok h
  have hread : (files.put (Tree.keyIn dir name) (.file (Text.encode text))).read path =
      .ok (Text.encode text) := by
    refine Files.Tree.read_eq_ok_iff.mpr ⟨dir, name, ?_, ?_⟩
    · exact Files.Tree.walk_of_spares (Files.Tree.spares_put _ hfree) hwalk
    · rw [Files.Tree.node?_put, if_pos rfl]
  unfold Tree.readText
  simp only [hread, Text.decodeStrict?_encode]

theorem readText_of_save {sheet : Sheet} {files files' : Tree} {path : String}
    (h : save sheet files path = .ok files') : files'.readText path = .ok sheet.text := by
  unfold save at h
  split at h
  · cases h
  · rename_i hwritten
    cases h
    exact readText_of_write hwritten

/-- Settings come back from their files if they come back from their sheets. -/
theorem comesBack_of {α : Type} {form : Form α} (horder : ∀ c, SheetInOrder (form.sheet c))
    (hread : ∀ k c, form.read (k.cut (form.sheet c)).entries = some (form.kept k c))
    (hall : ∀ c, form.kept .all c = c) : ComesBack form := by
  have hlaidOut : ∀ (k : Choice) (c : α) {files : Tree} {path text : String},
      files.readText path = .ok text → Toml.parse? text = some (k.cut (form.sheet c)).entries →
        load form.read form.default files path = .ok (form.kept k c) := by
    intro k c files path text htext hparse
    have hsettings : parse? form.read text = some (form.kept k c) := by
      rw [parse?, hparse, Option.bind_some, hread]
    unfold load
    simp only [htext, hsettings]
  have hcut : ∀ (k : Choice) (c : α) {files files' : Tree} {path : String},
      save (k.cut (form.sheet c)) files path = .ok files' →
        load form.read form.default files' path = .ok (form.kept k c) :=
    fun k c _ _ _ hsave =>
      hlaidOut k c (readText_of_save hsave) (Toml.parse?_text (sheetInOrder_cut (horder c) k))
  refine ⟨fun c files files' path hsave => ?_, hcut, hlaidOut⟩
  have hwhole : Choice.all.cut (form.sheet c) = form.sheet c := by
    simp [Choice.cut, Choice.all]
  have hload := hcut .all c (hwhole.symm ▸ hsave)
  rwa [hall] at hload

/-- **Settings of all kinds come back from their files**: saved settings as they were, and of settings
    of which a part was left out that part as defaults and everything else as it was. -/
theorem settings_come_back :
    ComesBack commonForm ∧ ComesBack featureForm ∧ ComesBack bmpForm := by
  refine ⟨?_, ?_, ?_⟩
  · refine comesBack_of sheetInOrder_common (fun k c => ?_) fun c => rfl
    have hshared := shared?_cut (k := k) false c []
    rwa [List.append_nil] at hshared
  · have horder : ∀ c : FeatureConfig, SheetInOrder c.sheet := fun c =>
      sheetInOrder_own (by decide) (by decide) (fieldsInOrder_feature c.own)
    exact comesBack_of horder (fun k c => withOwn?_cut FeatureConfig.mk c.own.kept
      (sheetInOrder_cut (horder c) k) rfl (fun _ => feature?_kept c.own) rfl) fun c => rfl
  · have horder : ∀ c : BmpConfig, SheetInOrder c.sheet := fun c =>
      sheetInOrder_own (by decide) (by decide) (fieldsInOrder_bmp c.own)
    exact comesBack_of horder (fun k c => withOwn?_cut BmpConfig.mk c.own.kept
      (sheetInOrder_cut (horder c) k) rfl (fun _ => bmp?_kept c.own) rfl) fun c => rfl

end Config

end Converge
