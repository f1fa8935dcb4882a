/-
Profiles read back. The tables of a profile are told by their fields, each with what its setting holds if
it is set: so a table is written and read by one account of it. A text is read back whatever it is and a
number if a TOML integer can hold it, and all numbers but sizes are small enough for that.
-/
import VerifiedBoot.Profile
import VerifiedBoot.Proofs.Codec.Text
import VerifiedBoot.Proofs.Toml.Document

namespace VerifiedBoot

open Toml

/-! ## Fields that may be missing -/

namespace Toml

/-- Keys of one table, all of them bare. -/
structure AreKeys (keys : List String) : Prop where
  bare : ∀ key ∈ keys, IsBare key
  differ : keys.Nodup

instance (keys : List String) : Decidable (AreKeys keys) :=
  decidable_of_iff ((keys.all fun key => decide (IsBare key)) = true ∧ keys.Nodup)
    ⟨fun h => ⟨by simpa using h.1, h.2⟩, fun h => ⟨by simpa using h.bare, h.differ⟩⟩

theorem AreKeys.sublist {keys keys' : List String} (h : AreKeys keys) (part : keys'.Sublist keys) :
    AreKeys keys' where
  bare key mem := h.bare key (part.subset mem)
  differ := h.differ.sublist part

/-- The fields of a table, each with its key and what it holds, if it is set. -/
structure Fields where
  list : List (String × Option Setting)
  areKeys : AreKeys (list.map Prod.fst)

/-- The fields that are set. -/
def settingsOf (list : List (String × Option Setting)) : List (String × Setting) :=
  list.filterMap fun (key, s) => s.map (key, ·)

section Settings

variable {list : List (String × Option Setting)} {key name : String}

theorem mem_settingsOf {s : Setting} : (key, s) ∈ settingsOf list ↔ (key, some s) ∈ list := by
  simp only [settingsOf, List.mem_filterMap, Prod.exists, Option.map_eq_some_iff, Prod.mk.injEq]
  constructor
  · rintro ⟨_, _, mem, _, rfl, rfl, rfl⟩
    exact mem
  · intro mem
    exact ⟨key, some s, mem, s, rfl, rfl, rfl⟩

theorem settingsOf_append (list list' : List (String × Option Setting)) :
    settingsOf (list ++ list') = settingsOf list ++ settingsOf list' := List.filterMap_append

theorem settingsOf_sublist (list : List (String × Option Setting)) :
    ((settingsOf list).map Prod.fst).Sublist (list.map Prod.fst) := by
  induction list with
  | nil => exact .slnil
  | cons field list ih =>
    obtain ⟨key, s | s⟩ := field
    · exact ih.cons key
    · exact ih.cons_cons key

/-- A field is found under its key, if it is set. -/
theorem lookup_settingsOf (differ : (list.map Prod.fst).Nodup) {s : Option Setting}
    (mem : (key, s) ∈ list) :
    (SettingTable.entries ⟨name, settingsOf list⟩).lookup key = s.map Setting.value := by
  induction list with
  | nil => cases mem
  | cons field list ih =>
    obtain ⟨first, different⟩ := List.nodup_cons.1 differ
    rcases List.mem_cons.1 mem with rfl | later
    · cases s with
      | none =>
        show List.lookup key (SettingTable.entries ⟨name, settingsOf list⟩) = _
        refine SettingTable.lookup_eq_none fun found => first ((settingsOf_sublist list).subset ?_)
        simpa [SettingTable.entries] using found
      | some s =>
        show List.lookup key ((key, s.value) :: _) = _
        rw [List.lookup_cons_self, Option.map_some]
    · obtain ⟨other, s'⟩ := field
      have ne : key ≠ other := by
        rintro rfl
        exact first (List.mem_map.2 ⟨_, later, rfl⟩)
      cases s' with
      | none => exact ih different later
      | some s' =>
        show List.lookup key ((other, s'.value) :: SettingTable.entries ⟨name, settingsOf list⟩) = _
        rw [List.lookup_cons, beq_false_of_ne ne]
        exact ih different later

end Settings

namespace Fields

variable {key name : String}

/-- The table that is written. -/
def table (fields : Fields) (name : String) : SettingTable := ⟨name, settingsOf fields.list⟩

/-- The table that is read. -/
def value (fields : Fields) (name : String) : Value := .table .header (fields.table name).entries

theorem isProper_table (fields : Fields) (bare : IsBare name) : (fields.table name).IsProper :=
  have keys := fields.areKeys.sublist (settingsOf_sublist fields.list)
  ⟨bare, fun setting mem => keys.bare setting.1 (List.mem_map_of_mem mem), keys.differ⟩

/-- A field is read back, whether it is set or not, if what it holds is. -/
theorem optional_value (fields : Fields) {α : Type} {write : α → Setting} {read : Value → Option α}
    (back : ∀ a, read (write a).value = some a) (position : Nat) {o : Option α}
    (h : fields.list[position]? = some (key, o.map write)) :
    (fields.value name).optional position key read = some o := by
  have found : (fields.value name).field? position key = (o.map write).map Setting.value :=
    lookup_settingsOf fields.areKeys.differ (List.mem_of_getElem? h)
  unfold Value.optional
  rw [found]
  cases o with
  | none => rfl
  | some a => exact congrArg (Option.map some) (back a)

end Fields
end Toml

/-! ## What fields hold -/

theorem Toml.Value.withDefault_of_some {α : Type} {v field : Value} {position : Nat} {name : String}
    {read : Value → Option α} {a default : α} (found : v.field? position name = some field)
    (h : read field = some a) : v.withDefault position name read default = some a := by
  unfold withDefault optional
  rw [found]
  exact congrArg (Option.map (·.getD default)) (congrArg (Option.map some) h)

theorem text?_value (t : String) : Value.text? (Setting.text t).value = some t := rfl

theorem map_number?_value {α : Type} {n bound : Nat} (h : n < bound) (ofNat : Nat → α) :
    ((Setting.number n).value.number? bound).map ofNat = some (ofNat n) := by
  have read : (Setting.number n).value.number? bound = some n :=
    if_pos ⟨Int.natCast_nonneg n, Int.ofNat_lt.2 h⟩
  rw [read, Option.map_some]

theorem word16?_value (w : UInt16) : Value.word16? (Setting.number w.toNat).value = some w :=
  (map_number?_value w.toNat_lt UInt16.ofNat).trans (congrArg some UInt16.ofNat_toNat)

theorem word32?_value (w : UInt32) : Value.word32? (Setting.number w.toNat).value = some w :=
  (map_number?_value w.toNat_lt UInt32.ofNat).trans (congrArg some UInt32.ofNat_toNat)

theorem word64?_value (w : UInt64) : Value.word64? (Setting.number w.toNat).value = some w :=
  (map_number?_value w.toNat_lt UInt64.ofNat).trans (congrArg some UInt64.ofNat_toNat)

theorem IntegrityPolicy.ofValue?_value (policy : IntegrityPolicy) :
    ofValue? (Setting.text policy.name).value = some policy := by
  cases policy <;> decide

/-! ## The tables of a profile -/

def KeyPaths.fields (p : KeyPaths) : Fields where
  list := [
    ("signprivate", p.dataPrivate.map .text),
    ("keyblock", p.keyblock.map .text),
    ("root_private", p.rootPrivate.map .text),
    ("data_public", p.dataPublic.map .text),
    ("kernel_subkey", p.kernelSubkey.map .text)]
  areKeys := by
    simp only [List.map]
    decide

def FirmwareProfile.fields (p : FirmwareProfile) : Fields where
  list := [
    ("version", p.version.map fun n => .number n.toNat),
    ("flags", p.flags.map fun n => .number n.toNat),
    ("keyblock_flags", p.keyblockFlags.map fun n => .number n.toNat),
    ("integrity", (some p.integrity).map fun policy => .text policy.name),
    ("fv_size_a", p.lengthA.map fun n => .number n.toNat),
    ("fv_size_b", p.lengthB.map fun n => .number n.toNat)]
  areKeys := by
    simp only [List.map]
    decide

def KernelProfile.fields (p : KernelProfile) : Fields where
  list := [
    ("version", p.version.map fun n => .number n.toNat),
    ("flags", p.flags.map fun n => .number n.toNat),
    ("keyblock_flags", p.keyblockFlags.map fun n => .number n.toNat),
    ("padding", p.padding.map fun n => .number n.toNat)]
  areKeys := by
    simp only [List.map]
    decide

def ChainExport.fields (e : ChainExport) : Fields where
  list := [
    ("dir", (some e.directory).map .text),
    ("id", (some e.id).map .text)]
  areKeys := by
    simp only [List.map]
    decide

theorem KeyPaths.ofValue?_fields (p : KeyPaths) (name : String) :
    ofValue? (p.fields.value name) = some p := by
  unfold KeyPaths.ofValue?
  rw [p.fields.optional_value text?_value 0 rfl, p.fields.optional_value text?_value 1 rfl,
    p.fields.optional_value text?_value 2 rfl, p.fields.optional_value text?_value 3 rfl,
    p.fields.optional_value text?_value 4 rfl]
  rfl

theorem FirmwareProfile.ofValue?_fields (p : FirmwareProfile) (name : String) :
    ofValue? (p.fields.value name) = some p := by
  unfold FirmwareProfile.ofValue? Value.withDefault
  rw [p.fields.optional_value word16?_value 0 rfl, p.fields.optional_value word32?_value 1 rfl,
    p.fields.optional_value word32?_value 2 rfl,
    p.fields.optional_value IntegrityPolicy.ofValue?_value 3 rfl,
    p.fields.optional_value word64?_value 4 rfl, p.fields.optional_value word64?_value 5 rfl]
  rfl

theorem KernelProfile.ofValue?_fields (p : KernelProfile) (name : String) :
    ofValue? (p.fields.value name) = some p := by
  unfold KernelProfile.ofValue?
  rw [p.fields.optional_value word16?_value 0 rfl, p.fields.optional_value word32?_value 1 rfl,
    p.fields.optional_value word32?_value 2 rfl, p.fields.optional_value word64?_value 3 rfl]
  rfl

theorem ChainExport.ofValue?_fields (e : ChainExport) (name : String) :
    ofValue? (e.fields.value name) = some e := by
  rfl

namespace Profile

variable {p : Profile}

/-- The tables of a profile with their names. -/
def tables (p : Profile) : List (String × Fields) :=
  [("keys", p.keys.fields), ("firmware", p.firmware.fields), ("kernel", p.kernel.fields)]
    ++ (p.chainExport.map fun e => ("loem", e.fields)).toList

theorem textSetting_eq (key : String) (t : Option String) :
    textSetting key t = settingsOf [(key, t.map .text)] := by
  cases t <;> rfl

theorem numberSetting_eq {α : Type} (key : String) (toNat : α → Nat) (n : Option α) :
    numberSetting key (n.map toNat) = settingsOf [(key, n.map fun n => .number (toNat n))] := by
  cases n <;> rfl

/-- A profile is written by the fields of its tables. -/
theorem toTables_eq (p : Profile) : p.toTables = p.tables.map fun (name, fields) => fields.table name := by
  simp only [toTables, textSetting_eq, numberSetting_eq, ← settingsOf_append]
  unfold tables
  cases p.chainExport <;> rfl

theorem areKeys_tables (p : Profile) : AreKeys (p.tables.map Prod.fst) := by
  have all : AreKeys ["keys", "firmware", "kernel", "loem"] := by decide
  refine all.sublist ?_
  unfold tables
  cases p.chainExport with
  | none => exact List.sublist_append_left ["keys", "firmware", "kernel"] ["loem"]
  | some e => exact List.Sublist.refl _

theorem isProper_toTables (p : Profile) : ∀ t ∈ p.toTables, t.IsProper := by
  rw [toTables_eq]
  intro t ht
  obtain ⟨⟨name, fields⟩, mem, rfl⟩ := List.mem_map.1 ht
  exact fields.isProper_table (p.areKeys_tables.bare name (List.mem_map_of_mem mem))

theorem names_nodup (p : Profile) : (p.toTables.map SettingTable.name).Nodup := by
  rw [toTables_eq, List.map_map]
  exact p.areKeys_tables.differ

/-- The document of a profile. -/
def document (p : Profile) : Table := p.tables.map fun (name, fields) => (name, fields.value name)

/-- A profile is read back from its document. -/
theorem ofTable?_document (p : Profile) : ofTable? p.document = some p := by
  obtain ⟨keys, firmware, kernel, chains⟩ := p
  have chainsRead : (Value.table .header (document ⟨keys, firmware, kernel, chains⟩)).optional 3 "loem"
      ChainExport.ofValue? = some chains := by
    cases chains with
    | none => rfl
    | some e => exact congrArg (Option.map some) (e.ofValue?_fields "loem")
  unfold ofTable?
  simp only
  rw [chainsRead, Value.withDefault_of_some rfl (keys.ofValue?_fields "keys"),
    Value.withDefault_of_some rfl (firmware.ofValue?_fields "firmware"),
    Value.withDefault_of_some rfl (kernel.ofValue?_fields "kernel")]
  rfl

/-- The document of a profile that is written is read as its tables. -/
theorem parse_of_renderAll {text : List Char} (h : SettingTable.renderAll? p.toTables = some text) :
    Toml.parse text = some p.document := by
  rw [SettingTable.parse_renderAll h p.isProper_toTables p.names_nodup, toTables_eq, List.map_map]
  rfl

/-! ## What cannot be written -/

theorem render?_text_ne_none (t : String) : (Setting.text t).render? ≠ .none := Option.some_ne_none _

theorem render?_word16_ne_none (w : UInt16) : (Setting.number w.toNat).render? ≠ .none := by
  rw [Ne, Setting.render?_number_eq_none_iff, Scalar.maxInteger]
  have := w.toNat_lt
  omega

theorem render?_word32_ne_none (w : UInt32) : (Setting.number w.toNat).render? ≠ .none := by
  rw [Ne, Setting.render?_number_eq_none_iff, Scalar.maxInteger]
  have := w.toNat_lt
  omega

theorem render?_word64_eq_none_iff (w : UInt64) :
    (Setting.number w.toNat).render? = .none ↔ 2 ^ 63 ≤ w.toNat := by
  rw [Setting.render?_number_eq_none_iff, Scalar.maxInteger]
  omega

/-- A field that is set but cannot be written. -/
def IsUnwritable (field : String × Option Setting) : Prop := ∃ s, field.2 = some s ∧ s.render? = .none

theorem isUnwritable_some {key : String} {s : Setting} :
    IsUnwritable (key, some s) ↔ s.render? = .none := by
  simp [IsUnwritable]

theorem isUnwritable_map {α : Type} {key : String} {write : α → Setting} {o : Option α} :
    IsUnwritable (key, o.map write) ↔ ∃ a, o = some a ∧ (write a).render? = .none := by
  simp [IsUnwritable]

/-- A profile can be written unless a field of one of its tables cannot be. -/
theorem renderAll?_toTables_eq_none_iff : SettingTable.renderAll? p.toTables = .none ↔
    ∃ t ∈ p.tables, ∃ field ∈ t.2.list, IsUnwritable field := by
  rw [SettingTable.renderAll?_eq_none_iff, toTables_eq]
  constructor
  · rintro ⟨_, ht, ⟨key, s⟩, hs, refused⟩
    obtain ⟨⟨name, fields⟩, mem, rfl⟩ := List.mem_map.1 ht
    exact ⟨_, mem, (key, some s), mem_settingsOf.1 hs, s, rfl, refused⟩
  · rintro ⟨t, mem, ⟨key, _⟩, hf, s, rfl, refused⟩
    exact ⟨_, List.mem_map_of_mem mem, (key, s), mem_settingsOf.2 hf, refused⟩

theorem not_isUnwritable_keys (p : KeyPaths) : ¬ ∃ field ∈ p.fields.list, IsUnwritable field := by
  simp [KeyPaths.fields, isUnwritable_map, render?_text_ne_none]

theorem isUnwritable_firmware_iff (p : FirmwareProfile) : (∃ field ∈ p.fields.list, IsUnwritable field) ↔
    ∃ size : UInt64, (p.lengthA = some size ∨ p.lengthB = some size) ∧ 2 ^ 63 ≤ size.toNat := by
  simp [FirmwareProfile.fields, isUnwritable_map, isUnwritable_some, render?_text_ne_none,
    render?_word16_ne_none, render?_word32_ne_none, render?_word64_eq_none_iff, or_and_right, exists_or]

theorem isUnwritable_kernel_iff (p : KernelProfile) : (∃ field ∈ p.fields.list, IsUnwritable field) ↔
    ∃ size : UInt64, p.padding = some size ∧ 2 ^ 63 ≤ size.toNat := by
  simp [KernelProfile.fields, isUnwritable_map, render?_word16_ne_none, render?_word32_ne_none,
    render?_word64_eq_none_iff]

theorem not_isUnwritable_chains (e : ChainExport) : ¬ ∃ field ∈ e.fields.list, IsUnwritable field := by
  simp [ChainExport.fields, isUnwritable_some, render?_text_ne_none]

/-- Only a size may be too large to be written. -/
theorem renderAll?_eq_none_iff : SettingTable.renderAll? p.toTables = .none ↔
    ∃ size : UInt64, (p.firmware.lengthA = some size ∨ p.firmware.lengthB = some size ∨
      p.kernel.padding = some size) ∧ 2 ^ 63 ≤ size.toNat := by
  have chains : ¬ ∃ t ∈ (p.chainExport.map fun e => ("loem", e.fields)).toList,
      ∃ field ∈ t.2.list, IsUnwritable field := by
    rintro ⟨t, ht, refused⟩
    obtain ⟨e, -, rfl⟩ := Option.map_eq_some_iff.1 (Option.mem_toList.1 ht)
    exact not_isUnwritable_chains e refused
  rw [renderAll?_toTables_eq_none_iff]
  simp only [tables, List.mem_append, or_and_right, exists_or, chains, List.exists_mem_cons_iff,
    List.not_mem_nil, not_isUnwritable_keys, isUnwritable_firmware_iff, isUnwritable_kernel_iff,
    false_and, exists_false, or_false, false_or, or_assoc]

/-! ## Round trip -/

theorem render_eq_ok_iff {text : String} :
    p.render = .ok text ↔ SettingTable.renderAll? p.toTables = some text.toList := by
  unfold render
  cases SettingTable.renderAll? p.toTables with
  | none => simp
  | some cs => simp [String.ext_iff]

theorem render_eq_error_iff {e : Error} :
    p.render = .error e ↔ SettingTable.renderAll? p.toTables = .none ∧ e = .profile := by
  unfold render
  cases SettingTable.renderAll? p.toTables with
  | none => simp [eq_comm]
  | some cs => simp

theorem parse_render {text : String} (h : p.render = .ok text) : parse text = .ok p := by
  have read := parse_of_renderAll (render_eq_ok_iff.1 h)
  unfold parse
  rw [read, Option.bind_some, ofTable?_document]

/-- Whatever a profile holds, what it is written as is read as an equal profile, as a text and as a file,
and asks the same of signing. Only a profile with a size that no TOML integer can hold is not written. -/
theorem written_profiles_read_back (p : Profile) :
    (∀ text, p.render = .ok text → ∃ q, parse text = .ok q ∧ parseBytes (Bytes.ofText text) = .ok q ∧
      q = p ∧ q.firmware.signOptions = p.firmware.signOptions ∧
      q.kernel.signOptions = p.kernel.signOptions ∧
      keyblockFlagsOf q.firmware.keyblockFlags = keyblockFlagsOf p.firmware.keyblockFlags ∧
      keyblockFlagsOf q.kernel.keyblockFlags = keyblockFlagsOf p.kernel.keyblockFlags) ∧
    ∀ e, p.render = .error e ↔ e = .profile ∧ ∃ size : UInt64,
      (p.firmware.lengthA = some size ∨ p.firmware.lengthB = some size ∨
        p.kernel.padding = some size) ∧ 2 ^ 63 ≤ size.toNat := by
  constructor
  · intro text h
    have file : parseBytes (Bytes.ofText text) = .ok p := by
      unfold parseBytes
      rw [Utf8.decodeChars?_ofText]
      simp only [String.ofList_toList]
      exact parse_render h
    exact ⟨p, parse_render h, file, rfl, rfl, rfl, rfl, rfl⟩
  · intro e
    rw [render_eq_error_iff, renderAll?_eq_none_iff, and_comm]

/-- Texts in quotes of three kinds and a size at the bound of what can be written. -/
def sample : Profile where
  keys := { KeyPaths.none with keyblock := some "it's \"quoted\"\"" }
  firmware := { FirmwareProfile.none with lengthA := some 0x7fffffffffffffff }
  kernel := .none
  chainExport := some ⟨"\n'''\x01", "\\"⟩

def sampleText : String :=
  "[keys]\nkeyblock = \"\"\"it's \"quoted\"\"\"\"\"\n\n[firmware]\nintegrity = \"auto\"\n" ++
  "fv_size_a = 9223372036854775807\n\n[kernel]\n\n[loem]\ndir = \"\"\"\n\n'''\\u0001\"\"\"\nid = '\\'\n"

/-- The sample is written and read back, and is not written with a size that is larger by one. -/
theorem sample_reads_back :
    (∃ q, sample.render = .ok sampleText ∧ parse sampleText = .ok q ∧ q = sample) ∧
    ({ sample with kernel := { KernelProfile.none with padding := some 0x8000000000000000 } }).render
      = .error .profile := by
  have written : sample.render = .ok sampleText := by decide +kernel
  obtain ⟨q, read, -, same, -⟩ := (written_profiles_read_back sample).1 sampleText written
  exact ⟨⟨q, written, read, same⟩, ((written_profiles_read_back _).2 .profile).2
    ⟨rfl, 0x8000000000000000, .inr (.inr rfl), by decide⟩⟩

end Profile
end VerifiedBoot
