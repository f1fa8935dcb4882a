/-
Chains and bodies are read inside their bytes. Each reader of a trust chain, each question about an
indexed body, and the verification of a slot is written once more with cuts that may be out of range,
made where the offsets come from the input. All of them are settled, whatever the input is: a size or
an end that is read is checked before anything is cut there.
-/
import VerifiedBoot.Proofs.Bounds.Slicing
import VerifiedBoot.Proofs.Codec.Chain
import VerifiedBoot.Proofs.Payload.Indexed
import VerifiedBoot.Proofs.Verification.Checks

namespace VerifiedBoot

variable {ε : Type}

open Sliced (settled)

/-! ## Keyblocks -/

namespace Keyblock

def readFieldsSliced (record : Bytes) : SlicedRead (PackedKey × ByteBlock 32 × Signature) := do
  let dataKey ← .settled PackedKey.read
  let checked ← .settled Read.position
  let checksum ← .settled (Read.block 32)
  let covered ← .cut record 0 checked
  .settled (Read.require (sha256 covered = checksum) .checksumMismatch)
  let signature ← .settled Signature.read
  let actual ← .settled Read.position
  .settled (Read.require (actual = record.length) (.sizeMismatch record.length actual))
  return (dataKey, checksum, signature)

def parseSliced (bs : Bytes) : Sliced CodecError Keyblock := do
  let (size, flags) ← settled ((readHeader bs.length).parse bs)
  let record ← bs.cut 0 size.toNat
  let (dataKey, checksum, signature) ← (readFieldsSliced record).parseFrom record headerSize
  return { headerVersion := currentVersion, size, flags, dataKey, checksum, signature }

/-- The checksum covers bytes that were read, and these are in the record. -/
theorem readFieldsSliced_eq {record : Bytes} {r : Reader} (size : r.size = record.length)
    (inside : r.position ≤ r.size) :
    readFieldsSliced record r = SlicedRead.settled (readFields record) r := by
  unfold readFieldsSliced readFields
  refine SlicedRead.settled_bind fun dataKey r₁ hkey => ?_
  refine SlicedRead.settled_bind fun checked r₂ hposition => ?_
  refine SlicedRead.settled_bind fun checksum r₃ hblock => ?_
  obtain ⟨-, inside₁, size₁⟩ := PackedKey.exact_read.inside hkey inside
  cases hposition
  rw [SlicedRead.cut_bind (by omega)]
  -- nothing is sliced after the checksum
  refine SlicedRead.settled_bind fun _ r₄ _ => ?_
  refine SlicedRead.settled_bind fun signature r₅ _ => ?_
  refine SlicedRead.settled_bind fun actual r₆ _ => ?_
  exact SlicedRead.settled_bind fun _ r₇ _ => rfl

theorem parseSliced_eq (bs : Bytes) : parseSliced bs = settled (parse bs) := by
  unfold parseSliced parse
  refine Sliced.settled_bind fun ⟨size, flags⟩ header => ?_
  obtain ⟨_, ⟨fits, room, -⟩, -⟩ := (exact_readHeader bs.length).parse_ok.1 header
  have length : (bs.take size.toNat).length = size.toNat := List.length_take_of_le fits
  have fields : (readFieldsSliced (bs.take size.toNat)).parseFrom (bs.take size.toNat) headerSize
      = settled ((readFields (bs.take size.toNat)).parseFrom (bs.take size.toNat) headerSize) := by
    rw [← SlicedRead.parseFrom_settled]
    unfold SlicedRead.parseFrom
    rw [readFieldsSliced_eq rfl]
    show headerSize ≤ (bs.take size.toNat).length
    rw [length]
    exact le_trans (by decide) room
  show (bs.cut 0 size.toNat >>= _) = _
  rw [Bytes.cut_to fits]
  show ((readFieldsSliced (bs.take size.toNat)).parseFrom (bs.take size.toNat) headerSize >>= _) = _
  rw [fields]
  exact Sliced.settled_bind fun ⟨dataKey, checksum, signature⟩ _ => rfl

end Keyblock

/-! ## Preambles and chains -/

namespace Preamble

def parseSliced (area : Bytes) (offset : Nat) : Sliced CodecError Preamble := do
  if sizeBound ≤ offset + minSize then
    throw (.failed .truncated)
  if area.length < offset + minSize then
    throw (.failed (.outOfBounds (offset + minSize) area.length))
  let rest ← area.cut offset area.length
  let size ← settled ((readSize rest.length).parse rest)
  let record ← rest.cut 0 size.toNat
  settled ((readFields size).parseFrom record 4)

theorem parseSliced_eq (area : Bytes) (offset : Nat) :
    parseSliced area offset = settled (parse area offset) := by
  unfold parseSliced parse
  by_cases overflow : sizeBound ≤ offset + minSize
  · rw [if_pos overflow, if_pos overflow]
    rfl
  by_cases short : area.length < offset + minSize
  · rw [if_neg overflow, if_neg overflow, if_pos short, if_pos short]
    rfl
  rw [if_neg overflow, if_neg overflow, if_neg short, if_neg short]
  show (area.cut offset area.length >>= _) = _
  rw [Bytes.cut_from (by omega)]
  refine Sliced.settled_bind fun size hsize => ?_
  obtain ⟨_, ⟨fits, -, -⟩, -⟩ := (exact_readSize _).parse_ok.1 hsize
  show (Bytes.cut (area.drop offset) 0 size.toNat >>= _) = _
  rw [Bytes.cut_to fits]
  rfl

end Preamble

namespace TrustChain

def parseSliced (area : Bytes) : Sliced CodecError TrustChain := do
  let keyblock ← Keyblock.parseSliced area
  let preamble ← Preamble.parseSliced area keyblock.size.toNat
  return { keyblock, preamble }

theorem parseSliced_eq (area : Bytes) : parseSliced area = settled (parse area) := by
  unfold parseSliced parse
  rw [Keyblock.parseSliced_eq]
  refine Sliced.settled_bind fun keyblock _ => ?_
  rw [Preamble.parseSliced_eq]
  exact Sliced.settled_bind fun preamble _ => rfl

end TrustChain

/-! ## Bodies that describe themselves -/

/-- The questions to a payload format that are answered with slices of a body. -/
structure SlicedFormat (ε : Type) where
  metadata : Bytes → Sliced ε (Option Bytes)
  contentMatches : Bytes → TrustPrimitives → Sliced ε Bool

namespace SlicedFormat

def raw : SlicedFormat ε where
  metadata _ := .ok none
  contentMatches _ _ := .ok false

/-- The metadata, and the parts of a body that are compared, lie between ends that its header gives. -/
def indexed : SlicedFormat ε where
  metadata body :=
    match IndexedPayload.integrityHeader? body with
    | none => .ok none
    | some header => do return some (← body.cut 0 header.metadataEnd)
  contentMatches body primitives :=
    match IndexedPayload.integrityHeader? body with
    | none => .ok false
    | some header =>
      if header.contentSize.toNat = body.length then do
        let index ← body.cut IndexedHeader.headerSize header.metadataEnd
        let content ← body.cut header.metadataEnd body.length
        return IndexedPayload.describesAll index content
          && IndexedPayload.blocksMatch index content primitives
      else .ok false

def metadataHash (format : SlicedFormat ε) (body : Bytes) (primitives : TrustPrimitives) :
    Sliced ε (Option MetadataHash) := do
  return (← format.metadata body).bind (MetadataHash.compute · primitives)

/-- All slices are in range, and the answers are those of a payload format. -/
structure Answers (format : SlicedFormat ε) (payload : PayloadFormat) : Prop where
  metadata : ∀ body, format.metadata body = .ok (payload.metadata body)
  contentMatches : ∀ body primitives,
    format.contentMatches body primitives = .ok (payload.contentMatches body primitives)
  metadataHash : ∀ body primitives,
    format.metadataHash body primitives = .ok (payload.metadataHash body primitives)

theorem answers_raw : (raw : SlicedFormat ε).Answers .raw where
  metadata _ := rfl
  contentMatches _ _ := rfl
  metadataHash _ _ := rfl

theorem metadata_indexed (body : Bytes) :
    (indexed : SlicedFormat ε).metadata body = .ok (PayloadFormat.indexed.metadata body) := by
  simp only [indexed, PayloadFormat.indexed]
  cases found : IndexedPayload.integrityHeader? body with
  | none => rfl
  | some header =>
    obtain ⟨-, room, fits, -⟩ := IndexedPayload.integrityHeader?_eq_some.1 found
    dsimp only
    rw [Bytes.cut_to (room.trans fits)]
    rfl

theorem contentMatches_indexed (body : Bytes) (primitives : TrustPrimitives) :
    (indexed : SlicedFormat ε).contentMatches body primitives
      = .ok (PayloadFormat.indexed.contentMatches body primitives) := by
  simp only [indexed, PayloadFormat.indexed, IndexedPayload.contentMatches]
  cases found : IndexedPayload.integrityHeader? body with
  | none => rfl
  | some header =>
    obtain ⟨-, room, fits, -⟩ := IndexedPayload.integrityHeader?_eq_some.1 found
    have order : IndexedHeader.headerSize ≤ header.metadataEnd := Nat.le_add_right _ _
    have ends := room.trans fits
    by_cases whole : header.contentSize.toNat = body.length
    · simp only [whole, ↓reduceIte]
      rw [Bytes.cut_eq_ok order ends, Bytes.cut_from ends]
      rw [beq_self_eq_true, Bool.true_and]
      rfl
    · simp only [whole, ↓reduceIte, beq_eq_false_iff_ne.2 whole, Bool.false_and]

theorem answers_indexed : (indexed : SlicedFormat ε).Answers .indexed where
  metadata := metadata_indexed
  contentMatches := contentMatches_indexed
  metadataHash body primitives := by
    unfold metadataHash
    rw [metadata_indexed]
    rfl

end SlicedFormat

/-! ## Slots -/

namespace Verifier

def metadataValidSliced (v : Verifier) (format : SlicedFormat ε) (body : Bytes)
    (signature : Signature) : Sliced ε Bool := do
  match ← format.metadataHash body v.primitives with
  | some hash =>
    if hash.algorithm.raw == signature.algorithm && hash.digest == signature.blob then
      format.contentMatches body v.primitives
    else
      return false
  | .none => return false

def bodyValidSliced (v : Verifier) (format : SlicedFormat ε) (body : Bytes) (signature : Signature)
    (dataKey : PackedKey) : Sliced ε Bool :=
  match signature.kind with
  | .classical => .ok (signature.verifyData dataKey body v.primitives).isOk
  | .digest => v.metadataValidSliced format body signature

def examineSliced (v : Verifier) (format : SlicedFormat (UntrustedReason × Stage)) (key : PackedKey)
    (chain body : Bytes) : Sliced (UntrustedReason × Stage) TrustedSlot := do
  let keyblock ← (Keyblock.parseSliced chain).withError fun e => (keyblockFault e, .start)
  settled (demand (keyblock.verifySignature key v.primitives).isOk
    .keyblockSignatureInvalid .keyblockChecksumOk)
  settled (demand (v.modeAllowed keyblock) .keyblockFlagsMismatch .keyblockSigVerified)
  let dataKey := keyblock.dataKey
  settled (demand (v.primitives.checkKey dataKey).isOk .dataKeyMalformed .keyblockSigVerified)
  settled (demand (dataKey.version ≤ maxKeyVersion) .dataKeyMalformed .keyblockSigVerified)
  let preamble ← (Preamble.parseSliced chain keyblock.size.toNat).withError
    fun _ => (.preambleMalformed, .dataKeyValid)
  settled (demand (preamble.verifySignature dataKey v.primitives).isOk
    .preambleSignatureInvalid .dataKeyValid)
  settled (v.demandVersion (preamble.combinedVersion dataKey))
  settled (demand (preamble.bodyLength ≤ body.length) .bodyTooLarge .preambleSigVerified)
  let signed ← body.cut 0 preamble.bodyLength
  let valid ← v.bodyValidSliced format signed preamble.bodySignature dataKey
  settled (demand valid .bodySignatureInvalid .preambleSigVerified)
  return {
    version := preamble.version
    flags := preamble.flags
    keyVersion := dataKey.version
    bodyLength := preamble.bodyLength
    keyblockFlags := keyblock.flags
    dataKey
    subkey := preamble.subkey }

def judgeSliced (v : Verifier) (format : SlicedFormat (UntrustedReason × Stage)) (key : PackedKey)
    (chain body : Bytes) : Sliced ε Verdict := do
  match ← (v.examineSliced format key chain body).outcome with
  | .ok slot => return .trusted slot
  | .error (reason, stage) => return .untrusted reason stage

variable {v : Verifier} {payload : PayloadFormat}

theorem metadataValidSliced_eq {format : SlicedFormat ε} (answers : format.Answers v.payload)
    (body : Bytes) (signature : Signature) :
    v.metadataValidSliced format body signature = .ok (v.metadataValid body signature) := by
  unfold metadataValidSliced metadataValid
  rw [answers.metadataHash]
  cases v.payload.metadataHash body v.primitives with
  | none => rfl
  | some hash =>
    show (if _ then _ else _) = _
    cases agree : hash.algorithm.raw == signature.algorithm && hash.digest == signature.blob with
    | true =>
      rw [if_pos rfl, answers.contentMatches]
      simp only [agree, Bool.true_and]
    | false =>
      simp only [agree, Bool.false_and]
      rfl

theorem bodyValidSliced_eq {format : SlicedFormat ε} (answers : format.Answers v.payload)
    (body : Bytes) (signature : Signature) (dataKey : PackedKey) :
    v.bodyValidSliced format body signature dataKey
      = .ok (v.bodyValid body signature dataKey) := by
  unfold bodyValidSliced bodyValid
  cases signature.kind with
  | classical => rfl
  | digest => exact metadataValidSliced_eq answers body signature

/-- The signed range of a body is cut out only after its length has been found to be in the body. -/
theorem examineSliced_eq {format : SlicedFormat (UntrustedReason × Stage)}
    (answers : format.Answers v.payload) (key : PackedKey) (chain body : Bytes) :
    v.examineSliced format key chain body = settled (v.examine key chain body) := by
  unfold examineSliced examine
  rw [Keyblock.parseSliced_eq, Sliced.withError_settled]
  refine Sliced.settled_bind fun keyblock _ => ?_
  refine Sliced.settled_bind fun _ _ => ?_
  refine Sliced.settled_bind fun _ _ => ?_
  refine Sliced.settled_bind fun _ _ => ?_
  refine Sliced.settled_bind fun _ _ => ?_
  rw [Preamble.parseSliced_eq, Sliced.withError_settled]
  refine Sliced.settled_bind fun preamble _ => ?_
  refine Sliced.settled_bind fun _ _ => ?_
  refine Sliced.settled_bind fun _ _ => ?_
  refine Sliced.settled_bind fun _ inBody => ?_
  have fits : preamble.bodyLength ≤ body.length := of_decide_eq_true (demand_eq_ok.1 inBody)
  rw [Bytes.cut_to fits]
  show (v.bodyValidSliced format (body.take preamble.bodyLength) _ _ >>= _) = _
  rw [bodyValidSliced_eq answers]
  exact Sliced.settled_bind fun _ _ => rfl

theorem judgeSliced_eq {format : SlicedFormat (UntrustedReason × Stage)}
    (answers : format.Answers v.payload) (key : PackedKey) (chain body : Bytes) :
    (v.judgeSliced format key chain body : Sliced ε Verdict) = .ok (v.judge key chain body) := by
  unfold judgeSliced judge
  rw [examineSliced_eq answers, Sliced.outcome_settled]
  cases v.examine key chain body <;> rfl

end Verifier
end VerifiedBoot
