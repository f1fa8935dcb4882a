/-
Images are read inside their bytes. The parts of a firmware, kernel or read-write image are found at
offsets that the image itself gives. Each use of an image is written once more with cuts at these
offsets that may be out of range, and none of them is, whatever the bytes are: the sizes that are read
are checked by the one that reads them, before the image is handed out. An image that was made by
other means has no such promise.
-/
import VerifiedBoot.Proofs.Bounds.Chains
import VerifiedBoot.Proofs.Bounds.FlashMaps
import VerifiedBoot.Proofs.Image.Independence
import VerifiedBoot.Proofs.Image.Kernel
import VerifiedBoot.Proofs.Image.ReadWrite

namespace VerifiedBoot

variable {ε : Type}

open Sliced (settled)

/-! ## Root-of-trust blobs -/

namespace Gbb
variable {g : Gbb} {area : Bytes}

def partSliced (g : Gbb) (r : OffsetRange) : Sliced ε Bytes := g.area.cut r.start r.stop

def hwidSliced (g : Gbb) : Sliced ε String := do
  let field ← g.partSliced g.header.hwidRange
  return Utf8.decodeLossy (← field.untilZeroSliced)

def keyInSliced (g : Gbb) (r : OffsetRange) : Sliced CodecError PackedKey := do
  let bytes ← g.partSliced r
  if bytes.length < PackedKey.headerSize then throw (.failed .truncated)
  settled (PackedKey.parse bytes)

def rootKeySliced (g : Gbb) : Sliced CodecError PackedKey := g.keyInSliced g.header.rootKeyRange

def recoveryKeySliced (g : Gbb) : Sliced CodecError PackedKey :=
  g.keyInSliced g.header.recoveryKeyRange

/-- A blob that was read has room for all that its header points to. -/
theorem requiredSize_le_of_parse (h : parse area = .ok g) :
    g.header.requiredSize ≤ g.area.length := by
  unfold parse at h
  obtain ⟨header, -, h⟩ := bind_eq_ok.1 h
  obtain ⟨-, h⟩ := refuse_eq_ok.1 h
  obtain ⟨-, h⟩ := refuse_eq_ok.1 h
  obtain ⟨room, h⟩ := refuse_eq_ok.1 h
  obtain rfl := pure_eq_ok.1 h
  exact not_lt.1 room

section Ranges
variable {offset size : UInt32} (inside : (OffsetRange.ofSize offset size).stop ≤ g.area.length)
include inside

/-- The range of a size at an offset has its ends in order. -/
theorem partSliced_eq :
    (g.partSliced (.ofSize offset size) : Sliced ε Bytes) = .ok (g.part (.ofSize offset size)) :=
  Bytes.cut_eq_ok (Nat.le_add_right _ _) inside

theorem keyInSliced_eq :
    g.keyInSliced (.ofSize offset size) = settled (g.keyIn (.ofSize offset size)) := by
  unfold keyInSliced keyIn
  rw [partSliced_eq inside]
  show (if _ then _ else _) = _
  split
  · rfl
  · rfl

end Ranges

section Room
variable (room : g.header.requiredSize ≤ g.area.length)
include room

theorem hwidSliced_eq : (g.hwidSliced : Sliced ε String) = .ok g.hwid := by
  have inside : g.header.hwidRange.stop ≤ g.area.length :=
    le_trans (le_max_of_le_left (le_max_right _ _)) room
  unfold hwidSliced
  rw [GbbHeader.hwidRange, partSliced_eq inside]
  show ((Bytes.untilZeroSliced _ : Sliced ε Bytes) >>= _) = _
  rw [Bytes.untilZeroSliced_eq]
  rfl

theorem rootKeySliced_eq : g.rootKeySliced = settled g.rootKey :=
  keyInSliced_eq (le_trans (le_max_of_le_right (le_max_left _ _)) room)

theorem recoveryKeySliced_eq : g.recoveryKeySliced = settled g.recoveryKey :=
  keyInSliced_eq (le_trans (le_max_of_le_right (le_max_right _ _)) room)

end Room
end Gbb

/-! ## Firmware images -/

namespace FirmwareImage

def addAreaSliced (map : FlashMap) (f : FirmwareImage) (c : FirmwareComponent) :
    Sliced ε FirmwareImage := do
  let area ← map.clampedAreaSliced c.name f.bytes.length
  return { f with area := fun c' => if c' = c then area else f.area c' }

def ofMapSliced (map : FlashMap) (bytes : Bytes) : Sliced ε FirmwareImage :=
  FirmwareComponent.all.foldlM (addAreaSliced map) { bytes, area := fun _ => none }

def parseSliced (bytes : Bytes) : Sliced Error FirmwareImage := do
  match ← FlashMap.findSliced bytes with
  | some map => ofMapSliced map bytes
  | none => throw (.failed .unsupportedImage)

def gbbSliced (f : FirmwareImage) : Sliced Error GbbSummary := do
  let missing : Error := .policy (.missingArea FirmwareComponent.gbb.name)
  let some area := (f.area .gbb).filter (!·.isEmpty) | throw (.failed missing)
  let some bytes := area.slice f.bytes | throw (.failed missing)
  let gbb ← settled (liftCodec (Gbb.parse bytes))
  let rootKey ← gbb.rootKeySliced.outcome
  let recoveryKey ← gbb.recoveryKeySliced.outcome
  return {
    area
    hwid := ← gbb.hwidSliced
    flags := gbb.header.flags
    rootKey := rootKey.toOption
    recoveryKey := recoveryKey.toOption }

def judgeWithSliced (options : VerifyOptions) (payload : PayloadFormat)
    (format : SlicedFormat (UntrustedReason × Stage)) (chain body : Bytes) :
    Option PackedKey → Sliced ε Verdict
  | some key => Verifier.judgeSliced ⟨options, .software, payload⟩ format key chain body
  | none => .ok (.untrusted .rootKeyUnavailable .start)

def visitSliced (f : FirmwareImage) (options : VerifyOptions) (payload : PayloadFormat)
    (format : SlicedFormat (UntrustedReason × Stage)) (s : FirmwareSurvey) (c : FirmwareComponent) :
    Sliced ε FirmwareSurvey :=
  match f.area c with
  | none => .ok s
  | some _ =>
    match c with
    | .gbb => do
      match ← f.gbbSliced.outcome with
      | .ok summary => return s.addGbb summary
      | .error _ => return s
    | .body id => .ok (s.setBody id (f.present? (.body id)))
    | .vblock id =>
      match f.present? (.vblock id), s.body id with
      | some chain, some body => do
        return s.setVerdict id (← judgeWithSliced options payload format chain body s.rootKey)
      | _, _ => .ok s

def verifySliced (f : FirmwareImage) (options : VerifyOptions) (payload : PayloadFormat)
    (format : SlicedFormat (UntrustedReason × Stage)) : Sliced ε FirmwareReport := do
  let survey ← FirmwareComponent.all.foldlM (f.visitSliced options payload format) (.start options)
  return { gbb := survey.gbb, verdict := survey.verdict }

variable {f : FirmwareImage} {bytes : Bytes} {options : VerifyOptions} {payload : PayloadFormat}
  {format : SlicedFormat (UntrustedReason × Stage)}

theorem ofMapSliced_eq (map : FlashMap) (bytes : Bytes) :
    (ofMapSliced map bytes : Sliced ε FirmwareImage) = .ok (ofMap map bytes) := by
  have step : (addAreaSliced map : FirmwareImage → FirmwareComponent → Sliced ε FirmwareImage)
      = fun f c => pure { f with
          area := fun c' => if c' = c then map.clampedArea c.name f.bytes.length else f.area c' } := by
    funext f c
    unfold addAreaSliced
    rw [FlashMap.clampedAreaSliced_eq]
    rfl
  unfold ofMapSliced ofMap
  rw [step, List.foldlM_pure]
  simp only [FirmwareComponent.all, List.foldl_cons, List.foldl_nil]
  congr 2
  funext c
  rcases c with _ | (_ | _) | (_ | _) <;> rfl

theorem parseSliced_eq (bytes : Bytes) : parseSliced bytes = settled (parse bytes) := by
  unfold parseSliced parse
  rw [FlashMap.findSliced_eq]
  cases FlashMap.find bytes with
  | none => rfl
  | some map => exact ofMapSliced_eq map bytes

theorem gbbSliced_eq (f : FirmwareImage) : f.gbbSliced = settled f.gbb := by
  unfold gbbSliced gbb
  cases (f.area .gbb).filter (!·.isEmpty) with
  | none => rfl
  | some area =>
    dsimp only
    cases area.slice f.bytes with
    | none => rfl
    | some bytes =>
      refine Sliced.settled_bind fun gbb hgbb => ?_
      have room := Gbb.requiredSize_le_of_parse (liftCodec_eq_ok.1 hgbb)
      rw [Gbb.rootKeySliced_eq room, Gbb.recoveryKeySliced_eq room, Gbb.hwidSliced_eq room]
      simp only [Sliced.outcome_settled]
      rfl

theorem judgeWithSliced_eq (answers : format.Answers payload) (chain body : Bytes)
    (key : Option PackedKey) :
    (judgeWithSliced options payload format chain body key : Sliced ε Verdict)
      = .ok (judgeWith options payload chain body key) := by
  cases key with
  | none => rfl
  | some key => exact Verifier.judgeSliced_eq answers key chain body

theorem visitSliced_eq (answers : format.Answers payload) (s : FirmwareSurvey)
    (c : FirmwareComponent) :
    (f.visitSliced options payload format s c : Sliced ε _) = .ok (f.visit options payload s c) := by
  unfold visitSliced visit
  cases f.area c with
  | none => rfl
  | some area =>
    cases c with
    | gbb =>
      dsimp only
      rw [gbbSliced_eq, Sliced.outcome_settled]
      cases f.gbb <;> rfl
    | body id => rfl
    | vblock id =>
      dsimp only
      cases f.present? (.vblock id) with
      | none => rfl
      | some chain =>
        cases s.body id with
        | none => rfl
        | some body =>
          dsimp only
          rw [judgeWithSliced_eq answers]
          rfl

theorem verifySliced_eq (answers : format.Answers payload) :
    (f.verifySliced options payload format : Sliced ε _) = .ok (f.verify options payload) := by
  have step : (f.visitSliced options payload format : _ → _ → Sliced ε FirmwareSurvey)
      = fun s c => pure (f.visit options payload s c) := by
    funext s c
    exact visitSliced_eq answers s c
  unfold verifySliced verify
  rw [step, List.foldlM_pure]
  rfl

end FirmwareImage

/-! ## Kernel images -/

namespace KernelImage
variable {k : KernelImage} {bytes : Bytes}

def chainAreaSliced (k : KernelImage) : Sliced ε Bytes := k.bytes.cut leadSize k.headerSize.toNat

def bodySliced (k : KernelImage) : Sliced ε Bytes :=
  k.bytes.cut k.headerSize.toNat (k.headerSize.toNat + k.bodySize.toNat)

def chainSliced (k : KernelImage) : Sliced Error TrustChain := do
  (TrustChain.parseSliced (← k.chainAreaSliced)).withError Error.codec

def vblockSliced (k : KernelImage) : Sliced Error Bytes := do
  let chain ← k.chainSliced
  (← k.chainAreaSliced).cut 0 chain.byteLength

def keyblockBytesSliced (k : KernelImage) : Sliced Error Bytes := do
  let chain ← k.chainSliced
  (← k.chainAreaSliced).cut 0 chain.keyblock.byteLength

def verifySliced (bytes : Bytes) (key : PackedKey) (options : VerifyOptions) :
    Sliced Error Verdict := do
  let kernel ← settled (parse bytes)
  let chain ← kernel.chainAreaSliced
  let body ← kernel.bodySliced
  Verifier.judgeSliced ⟨options, .software, .raw⟩ .raw key chain body

section Parsed
variable (parsed : parse bytes = .ok k)
include parsed

theorem chainAreaSliced_eq : (k.chainAreaSliced : Sliced ε Bytes) = .ok k.chainArea := by
  obtain ⟨-, lead, room, rfl⟩ := parse_eq_ok_iff.1 parsed
  exact Bytes.cut_eq_ok lead (le_trans (Nat.le_add_right _ _) room)

theorem bodySliced_eq : (k.bodySliced : Sliced ε Bytes) = .ok k.body := by
  obtain ⟨-, -, room, rfl⟩ := parse_eq_ok_iff.1 parsed
  exact Bytes.cut_eq_ok (Nat.le_add_right _ _) room

theorem chainSliced_eq : k.chainSliced = settled k.chain := by
  unfold chainSliced chain
  rw [chainAreaSliced_eq parsed]
  show (TrustChain.parseSliced k.chainArea).withError Error.codec = _
  rw [TrustChain.parseSliced_eq, Sliced.withError_settled]
  rfl

/-- A chain that was read is no longer than the area that it was read from. -/
theorem vblockSliced_eq : k.vblockSliced = settled k.vblock := by
  unfold vblockSliced vblock
  rw [chainSliced_eq parsed]
  refine Sliced.settled_bind fun chain hchain => ?_
  rw [chainAreaSliced_eq parsed]
  exact Bytes.cut_to (TrustChain.byteLength_le_of_parse (liftCodec_eq_ok.1 hchain))

theorem keyblockBytesSliced_eq : k.keyblockBytesSliced = settled k.keyblockBytes := by
  unfold keyblockBytesSliced keyblockBytes
  rw [chainSliced_eq parsed]
  refine Sliced.settled_bind fun chain hchain => ?_
  rw [chainAreaSliced_eq parsed]
  have whole := TrustChain.byteLength_le_of_parse (liftCodec_eq_ok.1 hchain)
  exact Bytes.cut_to (le_trans (Nat.le_add_right _ _) whole)

end Parsed

-- an image that was not read has sizes that nobody checked
example : chainAreaSliced ⟨0xffffffff, 1, []⟩ = (.error .outOfRange : Sliced Error Bytes) := rfl

theorem verifySliced_eq (bytes : Bytes) (key : PackedKey) (options : VerifyOptions) :
    verifySliced bytes key options = settled (verify bytes key options) := by
  unfold verifySliced verify
  refine Sliced.settled_bind fun kernel parsed => ?_
  rw [chainAreaSliced_eq parsed, bodySliced_eq parsed]
  exact Verifier.judgeSliced_eq SlicedFormat.answers_raw key _ _

end KernelImage

/-! ## Read-write images -/

namespace RwLayout

def presentAreaSliced (map : FlashMap) (name : String) (length : Nat) : Sliced ε (Option Area) := do
  return (← map.clampedAreaSliced name length).filter (!·.isEmpty)

def ofMapSliced (map : FlashMap) (length : Nat) : Sliced Error RwLayout := do
  let some signature ← presentAreaSliced map signatureName length
    | throw (.failed (.policy (.missingArea signatureName)))
  let some data ← presentAreaSliced map dataName length
    | throw (.failed (.policy (.missingArea dataName)))
  let key ← presentAreaSliced map keyName length
  let data ← settled (liftCodec (separate signature data))
  return { key, signature, data }

def ofImageSliced (image : Bytes) (signatureSize : Nat) : Sliced Error RwLayout := do
  match ← FlashMap.findSliced image with
  | some map => ofMapSliced map image.length
  | none => settled (bare image.length signatureSize)

theorem presentAreaSliced_eq (map : FlashMap) (name : String) (length : Nat) :
    (presentAreaSliced map name length : Sliced ε _) = .ok (presentArea map name length) := by
  unfold presentAreaSliced
  rw [FlashMap.clampedAreaSliced_eq]
  rfl

theorem ofMapSliced_eq (map : FlashMap) (length : Nat) :
    ofMapSliced map length = settled (ofMap map length) := by
  unfold ofMapSliced ofMap
  simp only [presentAreaSliced_eq]
  cases presentArea map signatureName length with
  | none => rfl
  | some signature =>
    cases presentArea map dataName length with
    | none => rfl
    | some data => exact Sliced.settled_bind fun data' _ => rfl

theorem ofImageSliced_eq (image : Bytes) (signatureSize : Nat) :
    ofImageSliced image signatureSize = settled (ofImage image signatureSize) := by
  unfold ofImageSliced ofImage
  rw [FlashMap.findSliced_eq]
  cases FlashMap.find image with
  | none => rfl
  | some map => exact ofMapSliced_eq map image.length

end RwLayout

namespace RwImage

def parseSliced (bytes : Bytes) (signatureSize : Nat) : Sliced Error RwImage := do
  return { bytes, layout := ← RwLayout.ofImageSliced bytes signatureSize }

/-- Splits the data at the end of what was signed. -/
def examineSliced (i : RwImage) (key : Option PackedKey) (primitives : TrustPrimitives) :
    Sliced RwFailure (Nat × UInt32) := do
  let signature ← settled i.classicalSignature
  let key ← settled (i.verificationKey key)
  settled ((primitives.checkKey key).mapError fun _ => .keyMalformed)
  let data ← settled ((i.part i.layout.data).mapError fun _ => .dataTooLarge)
  let dataSize := signature.dataSize.toNat
  if data.length < dataSize then
    throw (.failed .dataTooLarge)
  let signed ← data.cut 0 dataSize
  let rest ← data.cut dataSize data.length
  settled ((signature.verifyData key signed primitives).mapError fun _ => .signatureInvalid)
  if rest.all (· == padding) then
    return (dataSize, key.version)
  else
    throw (.failed .paddingInvalid)

def verifySliced (i : RwImage) (key : Option PackedKey) (primitives : TrustPrimitives) :
    Sliced ε RwVerdict := do
  match ← (i.examineSliced key primitives).outcome with
  | .ok (dataSize, keyVersion) => return .trusted dataSize keyVersion
  | .error failure => return .untrusted failure

variable {i : RwImage} {bytes : Bytes}

theorem parseSliced_eq (bytes : Bytes) (signatureSize : Nat) :
    parseSliced bytes signatureSize = settled (parse bytes signatureSize) := by
  unfold parseSliced parse
  rw [RwLayout.ofImageSliced_eq]
  exact Sliced.settled_bind fun layout _ => rfl

theorem examineSliced_eq (i : RwImage) (key : Option PackedKey) (primitives : TrustPrimitives) :
    i.examineSliced key primitives = settled (i.examine key primitives) := by
  unfold examineSliced examine
  refine Sliced.settled_bind fun signature _ => ?_
  refine Sliced.settled_bind fun key _ => ?_
  refine Sliced.settled_bind fun _ _ => ?_
  refine Sliced.settled_bind fun data _ => ?_
  by_cases short : data.length < signature.dataSize.toNat
  · simp only [short, ↓reduceIte]
    rfl
  simp only [short, ↓reduceIte]
  rw [Bytes.cut_to (not_lt.1 short), Bytes.cut_from (not_lt.1 short)]
  refine Sliced.settled_bind fun _ _ => ?_
  split
  · rfl
  · rfl

theorem verifySliced_eq (i : RwImage) (key : Option PackedKey) (primitives : TrustPrimitives) :
    (i.verifySliced key primitives : Sliced ε RwVerdict) = .ok (i.verify key primitives) := by
  unfold verifySliced verify
  rw [examineSliced_eq, Sliced.outcome_settled]
  cases i.examine key primitives <;> rfl

end RwImage
end VerifiedBoot
