/-
Hostile input. Whatever the bytes of an image, a blob, a chain or a body are, and whatever the caller
asks for, each use of them ends as it would without slices that could be out of range: in a value or in
one of its own errors, which is about what the caller gave. The areas that a layout gives lie inside the
image, also those of no bytes.
-/
import VerifiedBoot.Proofs.Bounds.Images
import VerifiedBoot.Proofs.Image.Firmware

namespace VerifiedBoot

open Sliced (settled)

/-! ## Areas of layouts -/

/-- An area lies inside an image of `length` bytes. -/
def Area.Inside (a : Area) (length : Nat) : Prop := a.offset + a.length ≤ length

theorem FirmwareImage.area_inside {bytes : Bytes} {f : FirmwareImage} {c : FirmwareComponent}
    {a : Area} (parsed : parse bytes = .ok f) (h : f.area c = some a) : a.Inside bytes.length := by
  obtain ⟨map, -, rfl⟩ := parse_eq_ok.1 parsed
  exact (FlashMap.clampedArea_le h).1

theorem KernelImage.area_inside {bytes : Bytes} {k : KernelImage} {id : SlotId} {a : Area}
    (parsed : parse bytes = .ok k)
    (h : k.layout.bodyArea id = some a ∨ k.layout.chainArea id = some a) :
    a.Inside bytes.length := by
  obtain ⟨-, lead, room, -⟩ := parse_eq_ok_iff.1 parsed
  unfold Area.Inside
  cases id with
  | b => rcases h with h | h <;> cases h
  | a =>
    rcases h with h | h
    · obtain rfl := Option.some.inj h
      exact room
    · obtain rfl := Option.some.inj h
      dsimp only
      omega

namespace RwLayout
variable {image : Bytes} {signatureSize length : Nat} {l : RwLayout} {signature data a : Area}

def areas (l : RwLayout) : List Area := l.signature :: l.data :: l.key.toList

/-- Data that are cut off end where the signature starts, which is before the data ended. -/
theorem separate_inside (inside : data.Inside length) (h : separate signature data = .ok a) :
    a.Inside length := by
  unfold Area.Inside at inside ⊢
  unfold separate at h
  split_ifs at h with cut
  · cases h
    have stop : data.stop ≤ data.offset + data.length := min_le_left _ _
    dsimp only
    omega
  · cases h
    exact inside

theorem area_inside (h : ofImage image signatureSize = .ok l) (ha : a ∈ l.areas) :
    a.Inside image.length := by
  unfold areas at ha
  rw [List.mem_cons, List.mem_cons, Option.mem_toList] at ha
  rcases ofImage_cases h with ⟨-, room, rfl⟩ | ⟨map, data, -, hs, hd, hkey, separated⟩
  · unfold Area.Inside
    rcases ha with rfl | rfl | ha
    · dsimp only
      omega
    · dsimp only
      omega
    · cases ha
  · rcases ha with rfl | rfl | ha
    · exact (presentArea_le hs).1
    · exact separate_inside (presentArea_le hd).1 separated
    · exact (presentArea_le (hkey ▸ ha)).1

end RwLayout

namespace RwImage
variable {bytes : Bytes} {signatureSize : Nat} {i : RwImage} {a : Area}

theorem part_of_inside (inside : a.Inside i.bytes.length) :
    i.part a = .ok ((i.bytes.drop a.offset).take a.length) :=
  part_eq_ok.2 (if_pos inside)

theorem part_of_parse (parsed : parse bytes signatureSize = .ok i) (ha : a ∈ i.layout.areas) :
    i.part a = .ok ((bytes.drop a.offset).take a.length) := by
  obtain ⟨rfl, layout⟩ := parse_eq_ok.1 parsed
  exact part_of_inside (RwLayout.area_inside layout ha)

/-- What is read from an area of the image fails only by what is in the area. -/
theorem liftCodec_part_ne_internal {α : Type} {read : Bytes → Except CodecError α}
    (parsed : parse bytes signatureSize = .ok i) (ha : a ∈ i.layout.areas) (fault : InternalFault) :
    (do liftCodec (read (← i.part a)) : Except Error α) ≠ .error (.internal fault) := by
  rw [part_of_parse parsed ha]
  show liftCodec (read _) ≠ _
  cases read ((bytes.drop a.offset).take a.length) with
  | ok v => nofun
  | error e => nofun

end RwImage

/-! ## What reading reports -/

theorem FirmwareImage.reports_parse (bytes : Bytes) : Reports (parse bytes) := by
  unfold parse
  cases FlashMap.find bytes with
  | none => exact FailsOnly.error rfl
  | some map => exact .ok _

theorem FirmwareImage.reports_gbb (f : FirmwareImage) : Reports f.gbb := by
  unfold gbb
  cases (f.area .gbb).filter (!·.isEmpty) with
  | none => exact .policy _
  | some area =>
    dsimp only
    cases area.slice f.bytes with
    | none => exact .policy _
    | some bs => exact (Reports.codec _).bind fun g _ => .ok _

theorem KernelImage.reports_parse (bytes : Bytes) : Reports (parse bytes) := by
  refine (Reports.codec _).bind fun lead _ => ?_
  cases lead with
  | none => exact FailsOnly.error rfl
  | some sizes => exact FailsOnly.refuse rfl (FailsOnly.refuse rfl (.ok _))

theorem KernelImage.reports_verify (bytes : Bytes) (key : PackedKey) (options : VerifyOptions) :
    Reports (verify bytes key options) := (reports_parse bytes).bind fun _ _ => .ok _

theorem RwLayout.reports_ofImage (image : Bytes) (signatureSize : Nat) :
    Reports (ofImage image signatureSize) := by
  unfold ofImage
  cases FlashMap.find image with
  | none =>
    show Reports (if _ then _ else _)
    split_ifs
    · exact FailsOnly.error rfl
    · exact .ok _
  | some map =>
    dsimp only
    unfold ofMap
    cases presentArea map signatureName image.length with
    | none => exact .policy _
    | some signature =>
      dsimp only
      cases presentArea map dataName image.length with
      | none => exact .policy _
      | some data => exact (Reports.codec _).bind fun data _ => .ok _

/-! ## Uses of bytes -/

/-- Looking for a flash map in an image, and for an area that a map names. -/
structure SettledFlashMap (bytes : Bytes) : Prop where
  find : FlashMap.findSliced bytes = (.ok (FlashMap.find bytes) : Sliced Error _)
  clampedArea : ∀ (m : FlashMap) (name : String), m.clampedAreaSliced name bytes.length
    = (.ok (m.clampedArea name bytes.length) : Sliced Error _)
  inside : ∀ (m : FlashMap) (name : String) (a : Area),
    m.clampedArea name bytes.length = some a → a.Inside bytes.length

/-- Reading a root-of-trust blob. -/
structure SettledGbb (area : Bytes) : Prop where
  hwid : ∀ g, Gbb.parse area = .ok g → g.hwidSliced = (.ok g.hwid : Sliced Error _)
  rootKey : ∀ g, Gbb.parse area = .ok g → g.rootKeySliced = settled g.rootKey
  recoveryKey : ∀ g, Gbb.parse area = .ok g → g.recoveryKeySliced = settled g.recoveryKey

/-- Reading a trust chain, or a preamble anywhere, and judging a slot with it. -/
structure SettledChain (area : Bytes) (position : Nat) : Prop where
  chain : TrustChain.parseSliced area = settled (TrustChain.parse area)
  preamble : Preamble.parseSliced area position = settled (Preamble.parse area position)
  judge : ∀ (v : Verifier) (format : SlicedFormat (UntrustedReason × Stage)),
    format.Answers v.payload → ∀ key body,
      v.judgeSliced format key area body = (.ok (v.judge key area body) : Sliced Error _)

/-- Asking an indexed body about itself. Two questions more read its header and slice nothing. -/
structure SettledBody (body : Bytes) : Prop where
  metadata : SlicedFormat.indexed.metadata body
    = (.ok (PayloadFormat.indexed.metadata body) : Sliced Error _)
  metadataHash : ∀ primitives, SlicedFormat.indexed.metadataHash body primitives
    = (.ok (PayloadFormat.indexed.metadataHash body primitives) : Sliced Error _)
  contentMatches : ∀ primitives, SlicedFormat.indexed.contentMatches body primitives
    = (.ok (PayloadFormat.indexed.contentMatches body primitives) : Sliced Error _)
  contentLength : ∀ length, PayloadFormat.indexed.contentLength body = some length →
    length ≤ body.length

/-- Reading and verifying a firmware image. -/
structure SettledFirmware (bytes : Bytes) (options : VerifyOptions) : Prop where
  parse : FirmwareImage.parseSliced bytes = settled (FirmwareImage.parse bytes)
  reports : Reports (FirmwareImage.parse bytes) ∧ ∀ f : FirmwareImage, Reports f.gbb
  inside : ∀ f c a, FirmwareImage.parse bytes = .ok f → f.area c = some a → a.Inside bytes.length
  gbb : ∀ f, FirmwareImage.parse bytes = .ok f → f.gbbSliced = settled f.gbb
  verifyRaw : ∀ f, FirmwareImage.parse bytes = .ok f →
    f.verifySliced options .raw .raw = (.ok (f.verify options .raw) : Sliced Error _)
  verifyIndexed : ∀ f, FirmwareImage.parse bytes = .ok f →
    f.verifySliced options .indexed .indexed = (.ok (f.verify options .indexed) : Sliced Error _)

/-- Reading and verifying a kernel image. -/
structure SettledKernel (bytes : Bytes) (key : PackedKey) (options : VerifyOptions) : Prop where
  inside : ∀ k id a, KernelImage.parse bytes = .ok k →
    k.layout.bodyArea id = some a ∨ k.layout.chainArea id = some a → a.Inside bytes.length
  chainArea : ∀ k, KernelImage.parse bytes = .ok k →
    k.chainAreaSliced = (.ok k.chainArea : Sliced Error _)
  body : ∀ k, KernelImage.parse bytes = .ok k → k.bodySliced = (.ok k.body : Sliced Error _)
  vblock : ∀ k, KernelImage.parse bytes = .ok k → k.vblockSliced = settled k.vblock
  keyblockBytes : ∀ k, KernelImage.parse bytes = .ok k →
    k.keyblockBytesSliced = settled k.keyblockBytes
  verify : KernelImage.verifySliced bytes key options = settled (KernelImage.verify bytes key options)
  reports : Reports (KernelImage.verify bytes key options) ∧
    ∀ k : KernelImage, Reports k.vblock ∧ Reports k.keyblockBytes

/-- Reading and verifying a read-write image. No area of it is found to be out of range later on. -/
structure SettledReadWrite (bytes : Bytes) (signatureSize : Nat) (key : Option PackedKey)
    (primitives : TrustPrimitives) : Prop where
  parse : RwImage.parseSliced bytes signatureSize = settled (RwImage.parse bytes signatureSize)
  reports : Reports (RwImage.parse bytes signatureSize)
  inside : ∀ i, RwImage.parse bytes signatureSize = .ok i →
    ∀ a ∈ i.layout.areas, a.Inside bytes.length
  part : ∀ i, RwImage.parse bytes signatureSize = .ok i →
    ∀ a ∈ i.layout.areas, i.part a = .ok ((bytes.drop a.offset).take a.length)
  signature : ∀ i, RwImage.parse bytes signatureSize = .ok i →
    ∀ fault, i.signature ≠ .error (.internal fault)
  storedKey : ∀ i, RwImage.parse bytes signatureSize = .ok i →
    ∀ fault, i.storedKey ≠ some (.error (.internal fault))
  verify : ∀ i, RwImage.parse bytes signatureSize = .ok i →
    i.verifySliced key primitives = (.ok (i.verify key primitives) : Sliced Error _)

/-! ## All input -/

theorem settledFlashMap (bytes : Bytes) : SettledFlashMap bytes where
  find := FlashMap.findSliced_eq bytes
  clampedArea m name := m.clampedAreaSliced_eq name bytes.length
  inside _ _ _ h := (FlashMap.clampedArea_le h).1

theorem settledGbb (area : Bytes) : SettledGbb area where
  hwid _ parsed := Gbb.hwidSliced_eq (Gbb.requiredSize_le_of_parse parsed)
  rootKey _ parsed := Gbb.rootKeySliced_eq (Gbb.requiredSize_le_of_parse parsed)
  recoveryKey _ parsed := Gbb.recoveryKeySliced_eq (Gbb.requiredSize_le_of_parse parsed)

theorem settledChain (area : Bytes) (position : Nat) : SettledChain area position where
  chain := TrustChain.parseSliced_eq area
  preamble := Preamble.parseSliced_eq area position
  judge _ _ answers key body := Verifier.judgeSliced_eq answers key area body

theorem settledBody (body : Bytes) : SettledBody body where
  metadata := SlicedFormat.answers_indexed.metadata body
  metadataHash := SlicedFormat.answers_indexed.metadataHash body
  contentMatches := SlicedFormat.answers_indexed.contentMatches body
  contentLength length h := by
    obtain ⟨header, hheader, rfl⟩ := Option.map_eq_some_iff.1 h
    exact (IndexedHeader.parse_eq_ok.1 (toOption_eq_some.1 hheader)).2.2

theorem settledFirmware (bytes : Bytes) (options : VerifyOptions) :
    SettledFirmware bytes options where
  parse := FirmwareImage.parseSliced_eq bytes
  reports := ⟨FirmwareImage.reports_parse bytes, FirmwareImage.reports_gbb⟩
  inside _ _ _ parsed := FirmwareImage.area_inside parsed
  gbb f _ := f.gbbSliced_eq
  verifyRaw _ _ := FirmwareImage.verifySliced_eq SlicedFormat.answers_raw
  verifyIndexed _ _ := FirmwareImage.verifySliced_eq SlicedFormat.answers_indexed

theorem settledKernel (bytes : Bytes) (key : PackedKey) (options : VerifyOptions) :
    SettledKernel bytes key options where
  inside _ _ _ parsed := KernelImage.area_inside parsed
  chainArea _ parsed := KernelImage.chainAreaSliced_eq parsed
  body _ parsed := KernelImage.bodySliced_eq parsed
  vblock _ parsed := KernelImage.vblockSliced_eq parsed
  keyblockBytes _ parsed := KernelImage.keyblockBytesSliced_eq parsed
  verify := KernelImage.verifySliced_eq bytes key options
  reports := ⟨KernelImage.reports_verify bytes key options, fun _ =>
    ⟨(Reports.codec _).bind fun _ _ => .ok _, (Reports.codec _).bind fun _ _ => .ok _⟩⟩

theorem settledReadWrite (bytes : Bytes) (signatureSize : Nat) (key : Option PackedKey)
    (primitives : TrustPrimitives) : SettledReadWrite bytes signatureSize key primitives where
  parse := RwImage.parseSliced_eq bytes signatureSize
  reports := (RwLayout.reports_ofImage bytes signatureSize).bind fun _ _ => .ok _
  inside i parsed a ha := by
    obtain ⟨rfl, layout⟩ := RwImage.parse_eq_ok.1 parsed
    exact RwLayout.area_inside layout ha
  part _ parsed _ ha := RwImage.part_of_parse parsed ha
  signature i parsed fault := RwImage.liftCodec_part_ne_internal parsed List.mem_cons_self fault
  storedKey i parsed fault h := by
    obtain ⟨area, harea, hread⟩ := Option.map_eq_some_iff.1 h
    have there : area ∈ i.layout.areas := by
      unfold RwLayout.areas
      simp only [List.mem_cons, Option.mem_toList, harea, or_true]
    exact RwImage.liftCodec_part_ne_internal parsed there fault hread
  verify i _ := i.verifySliced_eq key primitives

/-- No use of hostile bytes goes out of range. -/
theorem hostile_input_settled (bytes : Bytes) (key : PackedKey) (options : VerifyOptions)
    (given : Option PackedKey) (primitives : TrustPrimitives) (signatureSize position : Nat) :
    SettledFlashMap bytes ∧ SettledGbb bytes ∧ SettledChain bytes position ∧ SettledBody bytes ∧
      SettledFirmware bytes options ∧ SettledKernel bytes key options ∧
      SettledReadWrite bytes signatureSize given primitives :=
  ⟨settledFlashMap bytes, settledGbb bytes, settledChain bytes position, settledBody bytes,
    settledFirmware bytes options, settledKernel bytes key options,
    settledReadWrite bytes signatureSize given primitives⟩

/-- The shortest header that a kernel can have, and a body of two bytes. -/
def KernelImage.shortBytes : Bytes := leadBytes 16 2 ++ [1, 2]

/-- A blob with a root key, a kernel without a chain, a firmware image and a read-write image are read
where their bytes are; a preamble past the end is refused. -/
theorem hostile_samples_settled :
    (∃ g, Gbb.parse FirmwareImage.keyedGbb = .ok g ∧ g.rootKeySliced = .ok ⟨1, 5, [7]⟩ ∧
      g.hwidSliced = (.ok "" : Sliced Error _)) ∧
    (∃ k, KernelImage.parse KernelImage.shortBytes = .ok k ∧
      k.chainAreaSliced = (.ok [] : Sliced Error _) ∧
      k.bodySliced = (.ok [1, 2] : Sliced Error _) ∧
      k.vblockSliced = .error (.failed (.codec .truncated))) ∧
    Preamble.parseSliced KernelImage.shortBytes 40 = .error (.failed (.outOfBounds 83 18)) ∧
    (∀ key options, KernelImage.verifySliced KernelImage.shortBytes key options
      ≠ .error .outOfRange) ∧
    FirmwareImage.parseSliced FirmwareImage.sampleBytes = .ok FirmwareImage.sample ∧
    FirmwareImage.sample.gbbSliced.map (·.rootKey) = .ok (some Signer.softwareRootKey) ∧
    RwImage.parseSliced RwImage.sampleBytes 0 = .ok RwImage.sample ∧
    RwImage.sample.part RwImage.sample.layout.signature = .ok (List.replicate 20 0) := by
  have blob : ∃ g, Gbb.parse FirmwareImage.keyedGbb = .ok g ∧
      g.rootKey = .ok ⟨1, 5, [7]⟩ ∧ g.hwid = "" := by
    have read : (Gbb.parse FirmwareImage.keyedGbb).map (fun g => (g.rootKey.toOption, g.hwid))
        = .ok (some ⟨1, 5, [7]⟩, "") := by decide +kernel
    obtain ⟨g, parsed, facts⟩ := map_eq_ok.1 read
    obtain ⟨rootKey, hwid⟩ := Prod.mk.inj facts
    exact ⟨g, parsed, toOption_eq_some.1 rootKey, hwid⟩
  have kernel : KernelImage.parse KernelImage.shortBytes = .ok ⟨16, 2, KernelImage.shortBytes⟩ :=
    KernelImage.parse_eq_ok_iff.2 ⟨List.prefix_append _ _, by decide, by decide, rfl⟩
  have settledAt (bytes : Bytes) := hostile_input_settled bytes ⟨1, 1, []⟩ .none none .software 0 40
  obtain ⟨g, parsed, rootKey, hwid⟩ := blob
  obtain ⟨-, gbb, -⟩ := settledAt FirmwareImage.keyedGbb
  obtain ⟨-, -, chain, -, -, short, -⟩ := settledAt KernelImage.shortBytes
  obtain ⟨-, -, -, -, firmware, -⟩ := settledAt FirmwareImage.sampleBytes
  obtain ⟨-, -, -, -, -, -, readWrite⟩ := settledAt RwImage.sampleBytes
  refine ⟨⟨g, parsed, ?_, ?_⟩, ⟨_, kernel, ?_, ?_, ?_⟩, ?_, ?_, ?_, ?_, ?_, ?_⟩
  · rw [gbb.rootKey g parsed, rootKey]
    rfl
  · rw [gbb.hwid g parsed, hwid]
  · rw [short.chainArea _ kernel]
    decide +kernel
  · rw [short.body _ kernel]
    decide +kernel
  · rw [short.vblock _ kernel]
    decide +kernel
  · rw [chain.preamble]
    decide +kernel
  · intro key options
    obtain ⟨-, -, -, -, -, short, -⟩ := hostile_input_settled KernelImage.shortBytes key options none
      .software 0 0
    rw [short.verify]
    exact Sliced.settled_ne_outOfRange
  · rw [firmware.parse, FirmwareImage.parse_sampleBytes]
    rfl
  · rw [firmware.gbb _ FirmwareImage.parse_sampleBytes]
    have read : FirmwareImage.sample.gbb.map (·.rootKey) = .ok (some Signer.softwareRootKey) := by
      decide +kernel
    obtain ⟨summary, hgbb, hkey⟩ := map_eq_ok.1 read
    rw [hgbb]
    exact congrArg _ hkey
  · rw [readWrite.parse, RwImage.parse_sampleBytes]
    rfl
  · rw [readWrite.part _ RwImage.parse_sampleBytes _ List.mem_cons_self]
    decide +kernel

end VerifiedBoot
