/-
Names of areas in flash maps. A name is stored in a field of fixed width: it is filled up with zero
bytes or cut off, and it is read up to the first zero byte or the full width. For a text that fits
and has no zero character this changes nothing, whether the field has room left or not, so that an
area that was added to a map is found in the map that is read back under its own name and no other.
-/
import VerifiedBoot.Proofs.Codec.FlashMap
import VerifiedBoot.Proofs.Codec.Text

namespace VerifiedBoot

/-! ## Stored names -/

/-- Zero bytes at the end of a field do not count. -/
theorem Bytes.untilZero_append_zeros (bs : Bytes) (n : Nat) :
    untilZero (bs ++ List.replicate n 0) = untilZero bs := by
  induction bs with
  | nil => simp [untilZero]
  | cons b bs ih =>
    unfold untilZero at ih ⊢
    by_cases zero : b = 0
    · simp [zero]
    · simp [zero, ih]

namespace FlashName

/-- A text that can be stored as a name and read again: it is not cut off, neither at the width nor at
a zero character. -/
structure Storable (s : String) : Prop where
  size : s.utf8ByteSize ≤ flashNameSize
  noZero : Char.ofNat 0 ∉ s.toList

/-- A name is read as its text was, up to the width and to the first zero byte. -/
theorem trimmed_ofText (s : String) :
    (ofText s).trimmed = Bytes.untilZero ((Bytes.ofText s).take flashNameSize) :=
  Bytes.untilZero_append_zeros _ _

theorem Storable.trimmed_ofText {s : String} (h : Storable s) : (ofText s).trimmed = Bytes.ofText s := by
  have whole : (Bytes.ofText s).take flashNameSize = Bytes.ofText s := by
    refine List.take_of_length_le ?_
    rw [Bytes.length_ofText]
    exact h.size
  have none : (0 : UInt8) ∉ Bytes.ofText s := fun zero => h.noZero (Bytes.zero_mem_ofText.1 zero)
  have kept := Bytes.untilZero_of_not_mem none []
  rw [List.append_nil] at kept
  rw [FlashName.trimmed_ofText, whole, kept]
  exact List.append_nil _

end FlashName

/-! ## Added areas -/

/-- What is said of an area when it is added to a map. -/
structure AreaEntry where
  name : String
  offset : UInt32
  size : UInt32
  flags : UInt16
deriving DecidableEq, Repr

namespace AreaEntry
variable {e : AreaEntry} {entries : List AreaEntry} {name : String}

/-- The area as it stands in the map. -/
def toArea (e : AreaEntry) : FlashArea :=
  { FlashArea.named e.name e.offset e.size with flags := e.flags }

theorem hasName_toArea_iff (h : FlashName.Storable e.name) :
    e.toArea.hasName name = true ↔ e.name = name := by
  have stored : e.toArea.name.trimmed = Bytes.ofText e.name := h.trimmed_ofText
  rw [FlashArea.hasName, stored, beq_iff_eq, Bytes.ofText_inj]

/-- An area tells the name that it was added under. -/
theorem name_eq_of_toArea_eq {e' : AreaEntry} (h : FlashName.Storable e.name)
    (h' : FlashName.Storable e'.name) (same : e.toArea = e'.toArea) : e.name = e'.name :=
  (hasName_toArea_iff h).1 (same ▸ (hasName_toArea_iff h').2 rfl)

/-- The first area that was added under a name. -/
def FirstNamed (entries : List AreaEntry) (name : String) (e : AreaEntry) : Prop :=
  e.name = name ∧ ∃ earlier later, entries = earlier ++ e :: later ∧ ∀ e' ∈ earlier, e'.name ≠ name

theorem find?_name_eq_some_iff :
    entries.find? (·.name = name) = some e ↔ FirstNamed entries name e := by
  simp only [List.find?_eq_some_iff_append, decide_eq_true_eq, Bool.not_eq_true',
    decide_eq_false_iff_not, FirstNamed, ne_eq]

/-- Areas are looked up by the names that they were added under. -/
theorem findArea_build {m : FlashMap} (storable : ∀ e ∈ entries, FlashName.Storable e.name)
    (areas : m.areas = entries.map toArea) :
    m.findArea name = (entries.find? (·.name = name)).map toArea := by
  rw [FlashMap.findArea, areas, List.find?_map]
  refine congrArg _ (List.find?_congr fun e he => ?_)
  show e.toArea.hasName name = decide (e.name = name)
  rw [Bool.eq_iff_iff, hasName_toArea_iff (storable e he), decide_eq_true_eq]

theorem findArea_eq_some_iff {m : FlashMap} {a : FlashArea}
    (storable : ∀ e ∈ entries, FlashName.Storable e.name) (areas : m.areas = entries.map toArea) :
    m.findArea name = some a ↔ ∃ e, FirstNamed entries name e ∧ e.toArea = a := by
  rw [findArea_build storable areas, Option.map_eq_some_iff]
  simp only [find?_name_eq_some_iff]

theorem findArea_eq_none_iff {m : FlashMap} (storable : ∀ e ∈ entries, FlashName.Storable e.name)
    (areas : m.areas = entries.map toArea) :
    m.findArea name = none ↔ ∀ e ∈ entries, e.name ≠ name := by
  rw [findArea_build storable areas, Option.map_eq_none_iff, List.find?_eq_none]
  simp only [decide_eq_true_eq, ne_eq]

end AreaEntry

/-! ## Looking up in a map that is read back -/

namespace FlashMap

open AreaEntry in
/-- In a map that was built and written anywhere and is read from there, a name is that of the first
area that was added under it, with offset, size and flags as they were given, and no name is found
that no area was added under: none with a zero character, and for an area none but its own, be it a
start of that name or longer than it. -/
theorem areas_found_by_exact_name (entries : List AreaEntry) (counted : entries.length ≤ 65535)
    (storable : ∀ e ∈ entries, e.name.utf8ByteSize ≤ 32 ∧ Char.ofNat 0 ∉ e.name.toList)
    (mapName : String) (base : UInt64) (size : UInt32) :
    ∃ bs, (build mapName base size (entries.map toArea)).encode = .ok bs ∧
      ∀ before after : Bytes, ∃ m, parseAt (before ++ bs ++ after) before.length = .ok m ∧
        (∀ name a, m.findArea name = some a ↔ ∃ e, FirstNamed entries name e ∧
          a = ⟨e.offset, e.size, FlashName.ofText e.name, e.flags⟩) ∧
        (∀ name, m.findArea name = none ↔ ∀ e ∈ entries, e.name ≠ name) ∧
        (∀ name, Char.ofNat 0 ∈ name.toList → m.findArea name = none) ∧
        ∀ e ∈ entries, ∀ name ≠ e.name, m.findArea name ≠ some e.toArea := by
  have stored : ∀ e ∈ entries, FlashName.Storable e.name := fun e he =>
    ⟨(storable e he).1, (storable e he).2⟩
  have few : (build mapName base size (entries.map toArea)).areas.length ≤ 65535 := by
    rw [areas_build, List.length_map]
    exact counted
  obtain ⟨bs, encoded⟩ := exists_encode_iff.2 few
  refine ⟨bs, encoded, fun before after => ?_⟩
  have read : parseAt (before ++ bs ++ after) before.length
      = .ok { build mapName base size (entries.map toArea) with position := before.length } := by
    refine parseAt_eq_ok_iff_stands.2 ⟨rfl, rfl, bs, (encode_at _ _).trans encoded, ?_⟩
    rw [List.append_assoc, List.drop_left]
    exact List.prefix_append bs after
  refine ⟨_, read, fun name a => ?_, fun name => findArea_eq_none_iff stored rfl, fun name zero => ?_,
    fun e he name other found => ?_⟩
  · rw [findArea_eq_some_iff stored rfl]
    exact exists_congr fun e => and_congr_right fun _ => eq_comm
  · rw [findArea_eq_none_iff stored rfl]
    rintro e he rfl
    exact (stored e he).noZero zero
  · obtain ⟨e', ⟨named, earlier, later, rfl, -⟩, same⟩ := (findArea_eq_some_iff stored rfl).1 found
    have he' : e' ∈ earlier ++ e' :: later := by simp
    exact other (named.symm.trans (name_eq_of_toArea_eq (stored e' he') (stored e he) same))

/-- A name of full width, a start of it, and a second area under a name that is taken. -/
def namedAreas : List AreaEntry :=
  [⟨"RW_SECTION_A_WITH_32_BYTE_NAME_X", 0x100, 0x10, 1⟩, ⟨"RW_SECTION_A", 0x200, 0x20, 2⟩,
    ⟨"RW_SECTION_A", 0x300, 0x30, 4⟩]

/-- Behind two other bytes, the name of full width and its start are told apart, the first of two
areas with one name is found, and a name that goes on behind the full width is not. -/
theorem full_width_name_told_apart : ∃ bs m,
    (build "FLASH" 0 0x1000 (namedAreas.map AreaEntry.toArea)).encode = .ok bs ∧
    parseAt ([1, 2] ++ bs ++ [3]) 2 = .ok m ∧
    (m.findArea "RW_SECTION_A_WITH_32_BYTE_NAME_X").map (·.toArea) = some ⟨0x100, 0x10⟩ ∧
    (m.findArea "RW_SECTION_A").map (·.toArea) = some ⟨0x200, 0x20⟩ ∧
    m.findArea "RW_SECTION_A_WITH_32_BYTE_NAME_XY" = none := by
  obtain ⟨bs, encoded, found⟩ := areas_found_by_exact_name namedAreas (by decide) (by decide +kernel)
    "FLASH" 0 0x1000
  obtain ⟨m, read, first, absent, -, -⟩ := found [1, 2] [3]
  have full := (first "RW_SECTION_A_WITH_32_BYTE_NAME_X" _).2
    ⟨_, ⟨rfl, [], _, rfl, fun _ h => absurd h List.not_mem_nil⟩, rfl⟩
  have start := (first "RW_SECTION_A" _).2
    ⟨⟨"RW_SECTION_A", 0x200, 0x20, 2⟩, ⟨rfl, [_], _, rfl, by decide +kernel⟩, rfl⟩
  refine ⟨bs, m, encoded, read, ?_, ?_, (absent _).2 (by decide +kernel)⟩
  · rw [full]
    rfl
  · rw [start]
    rfl

end FlashMap
end VerifiedBoot
