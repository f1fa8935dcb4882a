/-
Sizes that the caller gives. The header of a kernel, the space for a signature, the bytes to sign and
the offset of a preamble come at the full width of a machine word. What is done with them is written
once more with sums and cuts that may be out of range. Each size is checked before it goes into a sum,
with two exceptions, at which the program stops instead of refusing the size: the size that a signing
key announces, and the header of a kernel, for which room is made together with the body before it is
found to have no length field.
-/
import VerifiedBoot.Proofs.Bounds.NewRecords
import VerifiedBoot.Proofs.Image.Kernel
import VerifiedBoot.Proofs.Image.ReadWrite
import VerifiedBoot.Proofs.Image.ReadWriteFrame

namespace VerifiedBoot

variable {ε : Type}

open Sliced (settled asRun sums reserve)

/-! ## Areas of images in memory -/

/-- The bytes of an area whose end is cut off at the largest size. -/
def Area.sliceSummed (a : Area) (image : Bytes) : Option Bytes :=
  if a.offset ≤ a.stop ∧ a.stop ≤ image.length then some (image.between a.offset a.stop) else none

theorem Area.sliceSummed_eq {image : Bytes} (memory : image.length < allocationBound) (a : Area) :
    a.sliceSummed image = a.slice image := by
  refine (slice_eq_between ?_).symm
  unfold allocationBound at memory
  unfold sizeBound
  omega

/-! ## Records in memory -/

/-- There is room for the records of a key's signatures, and for that of its public key. -/
structure SigningKey.RecordsInMemory (key : SigningKey) : Prop where
  signature : ∀ data blob, key.sign data = .ok blob →
    Signature.headerSize + blob.length < allocationBound
  publicKey : PackedKey.headerSize + key.publicMaterial.length < allocationBound

/-! ## Slots -/

namespace ExistingChain

/-- Looks for the preamble at the offset that the keyblock gives, also if the data key is not usable. -/
def inspectSummed (area : Bytes) (bodySize : Nat) (primitives : TrustPrimitives) :
    Sliced ε (Option ExistingChain) := do
  let .ok keyblock ← (Keyblock.parseSliced area).outcome | return none
  let preamble ← (Preamble.parseSummed area keyblock.size.toNat).outcome
  return do
    guard (primitives.checkKey keyblock.dataKey).isOk
    let preamble ← preamble.toOption
    guard (preamble.verifySignature keyblock.dataKey primitives).isOk
    guard (preamble.bodyLength ≤ bodySize)
    return { version := preamble.version, flags := preamble.flags, bodyLength := preamble.bodyLength }

theorem inspectSummed_eq (area : Bytes) (bodySize : Nat) (primitives : TrustPrimitives) :
    (inspectSummed area bodySize primitives : Sliced ε _) = .ok (inspect area bodySize primitives) := by
  unfold inspectSummed inspect
  rw [Keyblock.parseSliced_eq, Sliced.outcome_settled]
  cases Keyblock.parse area with
  | error e => rfl
  | ok keyblock =>
    dsimp only [bind, Except.bind]
    rw [Preamble.parseSummed_eq, Sliced.outcome_settled]
    rfl

end ExistingChain

namespace Signer
variable {s : Signer}

def prepareSummed (s : Signer) (image : Bytes) (slot : Slot) (bodyName chainName : String)
    (integrity : Bool) : Sliced Error Slot := do
  let some body := slot.body.sliceSummed image
    | throw (.failed (.policy (.missingArea bodyName)))
  let some chain := slot.chain.sliceSummed image
    | throw (.failed (.policy (.missingArea chainName)))
  let existing ← ExistingChain.inspectSummed chain body.length s.primitives
  let bodyLength ← settled (s.signedLength slot.id bodyName body existing integrity)
  let metadataHash ←
    if integrity then do
      let signed ← body.cut 0 bodyLength
      settled (some <$> s.checkedMetadata bodyName signed)
    else pure slot.metadataHash
  return { slot with
    version := (s.options.version <|> existing.map (·.version)).getD 1
    flags := (s.options.flags <|> existing.map (·.flags)).getD 0
    bodyLength
    metadataHash }

/-- The signed range of a slot is cut out only after its length has been found to be in the body. -/
theorem prepareSummed_eq {image : Bytes} (memory : image.length < allocationBound) (slot : Slot)
    (bodyName chainName : String) (integrity : Bool) :
    s.prepareSummed image slot bodyName chainName integrity
      = settled (s.prepare image slot bodyName chainName integrity) := by
  unfold prepareSummed prepare
  simp only [Area.sliceSummed_eq memory]
  cases slot.body.slice image with
  | none => rfl
  | some body =>
    cases slot.chain.slice image with
    | none => rfl
    | some chain =>
      dsimp only
      rw [ExistingChain.inspectSummed_eq]
      refine Sliced.settled_bind fun n hn => ?_
      have fits : n ≤ body.length :=
        signedLength_le hn fun e he => ExistingChain.bodyLength_le_of_inspect he
      cases integrity with
      | false => rfl
      | true =>
        simp only [↓reduceIte]
        rw [Bytes.cut_to fits]
        exact Sliced.settled_bind fun hash _ => rfl

def chainForSummed (s : Signer) (body : Bytes) (metadataHash : Option MetadataHash)
    (version : UInt16) (flags : UInt32) (capacity : Nat) : Sliced Error Bytes := do
  let bodySignature ← settled (s.bodySignature body metadataHash)
  let preamble ← Preamble.createSummed version flags bodySignature s.options.subkey s.dataKey
  (TrustChain.encodeSummed { keyblock := s.keyblock, preamble } capacity).withError .codec

theorem chainForSummed_eq {body : Bytes} {metadataHash : Option MetadataHash} {version : UInt16}
    {flags : UInt32} {capacity : Nat} (keyblock : s.keyblock.byteLength < allocationBound) :
    s.chainForSummed body metadataHash version flags capacity
      = asRun (s.chainFor body metadataHash version flags capacity) := by
  unfold chainForSummed chainFor
  rw [reports_bodySignature.settled_eq_asRun]
  refine Sliced.asRun_bind fun signature _ => ?_
  rw [Preamble.sizedRecord_create.inRange]
  refine Sliced.asRun_bind fun preamble hp => ?_
  have keyblockFits : s.keyblock.byteLength < sizeBound := keyblock.trans (by decide)
  have preambleFits : preamble.byteLength < sizeBound := by
    rw [← (Preamble.canonical_of_create hp).1.size]
    exact preamble.size.toNat_lt.trans (by decide)
  have encoded := TrustChain.encodeSummed_eq (c := { keyblock := s.keyblock, preamble })
    keyblockFits preambleFits capacity
  rw [encoded, Sliced.withError_settled]
  exact (Reports.codec _).settled_eq_asRun

/-- Building a chain stops the program just if the size of its preamble passes a machine word. -/
theorem stops_chainFor {body : Bytes} {metadataHash : Option MetadataHash} {version : UInt16}
    {flags : UInt32} {capacity : Nat} {fault : SizeFault} :
    s.chainFor body metadataHash version flags capacity = .error (.stopped fault) ↔
      fault = .sum ∧ ∃ bodySignature, s.bodySignature body metadataHash = .ok bodySignature ∧
        sizeBound ≤ s.dataKey.recordSize (Preamble.signedLength bodySignature s.options.subkey) := by
  unfold chainFor
  -- signing the body comes before any sum, and encoding the chain after the last one
  rw [bind_eq_error, or_iff_right (reports_bodySignature.ne_stopped fault), ← exists_and_left]
  refine exists_congr fun bodySignature => ?_
  rw [and_left_comm, Reports.bind_stopped_iff fun _ _ => .codec _,
    Preamble.sizedRecord_create.stops fault]

end Signer

/-! ## Kernels -/

/-- Making room for a byte string of `n` bytes, whose size is a sum, meets a fault. -/
def SizeFault.MetBy (n : Nat) : SizeFault → Prop
  | sum => sizeBound ≤ n
  | capacity => allocationBound ≤ n ∧ n < sizeBound

theorem SizeFault.MetBy.large {n : Nat} {fault : SizeFault} (h : fault.MetBy n) :
    allocationBound ≤ n := by
  cases fault with
  | sum => exact le_trans (by decide) h
  | capacity => exact h.1

theorem room_eq_stopped (sizes : List Nat) {fault : SizeFault} :
    (sizeSum sizes >>= ensureCapacity) = .error (.stopped fault) ↔ fault.MetBy sizes.sum := by
  simp only [bind_eq_error, sizeSum_eq_ok, sizeSum_eq_stopped, ensureCapacity_eq_stopped]
  cases fault with
  | sum => simp [SizeFault.MetBy]
  | capacity => simp [SizeFault.MetBy, and_comm]

theorem room_eq_ok {sizes : List Nat} (h : sizes.sum < allocationBound) :
    (sizeSum sizes >>= ensureCapacity) = .ok () :=
  bind_eq_ok.2 ⟨_, sizeSum_eq_ok.2 ⟨h.trans (by decide), rfl⟩, ensureCapacity_eq_ok.2 h⟩

namespace KernelImage

def assembleSummed (chain body : Bytes) (headerSize : Nat) : Sliced Error Bytes := do
  let needed ← sums [leadSize, chain.length]
  if headerSize < needed then
    throw (.failed (.codec (.areaTooSmall needed headerSize)))
  reserve (← sums [headerSize, body.length])
  let headerWord ← settled (liftCodec (toLength .kernelSize headerSize))
  let bodyWord ← settled (liftCodec (toLength .kernelSize body.length))
  return Bytes.padTo (magic ++ Bytes.le32 headerWord ++ Bytes.le32 bodyWord ++ chain) headerSize 0
    ++ body

/-- The chain that signs the body of a kernel, with sums that may be out of range. -/
def chainForSummed (signer : Signer) (body : Bytes) : Sliced Error Bytes :=
  signer.chainForSummed body none (signer.options.version.getD 1) (signer.options.flags.getD 0)
    (sizeBound - 1)

def signSummed (body : Bytes) (signer : Signer) (padding : Nat) : Sliced Error Bytes := do
  let chain ← chainForSummed signer body
  let headerSize ← if padding = 0 then sums [leadSize, chain.length] else .ok padding
  assembleSummed chain body headerSize

variable {signer : Signer} {body chain : Bytes} {padding headerSize : Nat} {fault : SizeFault}

/-- Both records of a chain have lengths of 32 bits, and so has the body that it signs. -/
theorem lengths_of_chainFor (h : chainFor signer body = .ok chain) :
    leadSize + chain.length < 3 * word32Bound ∧ body.length < word32Bound := by
  obtain ⟨signature, hs, preamble, -, encoded⟩ := Signer.chainFor_eq_ok.1 h
  obtain ⟨k, hk, p, hp, rfl, -⟩ := TrustChain.encode_eq_ok.1 encoded
  simp only [Signer.bodySignature, bind_eq_ok, liftCodec_eq_ok, toLength_eq_ok] at hs
  obtain ⟨dataSize, length, -⟩ := hs
  have keyblockLength := Keyblock.length_encode_lt hk
  have preambleLength := Preamble.length_encode_lt hp
  have bodyLength := dataSize.toNat_lt
  rw [length] at bodyLength
  refine ⟨?_, bodyLength⟩
  unfold word32Bound at keyblockLength preambleLength ⊢
  unfold leadSize
  rw [List.length_append]
  omega

theorem sums_leadSize (small : leadSize + chain.length < 3 * word32Bound) :
    (sums [leadSize, chain.length] : Sliced ε Nat) = .ok (leadSize + chain.length) := by
  rw [Sliced.sums_eq]
  exact Sliced.word_eq_ok (small.trans (by decide))

theorem assembleSummed_eq (small : leadSize + chain.length < 3 * word32Bound) :
    assembleSummed chain body headerSize = asRun (assemble chain body headerSize) := by
  unfold assembleSummed assemble
  rw [sums_leadSize small]
  show (if _ then _ else _) = _
  split_ifs
  · rfl
  · rw [(Reports.codec (toLength _ headerSize)).settled_eq_asRun,
      (Reports.codec (toLength _ body.length)).settled_eq_asRun]
    show (sums _ >>= _) = _
    rw [← Sliced.asRun_sizeSum]
    refine Sliced.asRun_bind fun whole _ => ?_
    rw [← Sliced.asRun_ensureCapacity]
    exact Sliced.asRun_bind fun _ _ => Sliced.asRun_bind fun _ _ => Sliced.asRun_bind fun _ _ => rfl

/-- With a header that has room for the chain, the program stops just if there is none for the whole
image. -/
theorem stops_assemble : assemble chain body headerSize = .error (.stopped fault) ↔
    leadSize + chain.length ≤ headerSize ∧ fault.MetBy (headerSize + body.length) := by
  unfold assemble
  by_cases short : headerSize < leadSize + chain.length
  · rw [if_pos short]
    exact ⟨nofun, fun h => absurd short (not_lt.2 h.1)⟩
  · -- past the check only the sum and the reservation are more than a report
    rw [if_neg short, and_iff_right (not_lt.1 short), ← bind_assoc]
    refine (Reports.bind_stopped_iff fun _ _ => ?_).trans (room_eq_stopped [headerSize, body.length])
    exact (Reports.codec _).bind fun headerWord _ => (Reports.codec _).bind fun bodyWord _ => .ok _

theorem assemble_of_wide (start : leadSize + chain.length ≤ headerSize)
    (wide : word32Bound ≤ headerSize) (room : headerSize + body.length < allocationBound) :
    assemble chain body headerSize = .error (.codec (.nonCanonical .kernelSize)) := by
  have there : (sizeSum [headerSize, body.length] >>= ensureCapacity) = .ok () := room_eq_ok room
  unfold assemble
  rw [if_neg (not_lt.2 start), ← bind_assoc, there, toLength, if_neg (not_lt.2 wide)]
  rfl

/-- Signing a kernel, for any size of its header and any size that the data key announces. -/
structure SigningSizes (body : Bytes) (signer : Signer) (padding : Nat) : Prop where
  /-- Each sum and each reservation is in range, or the program stops at it. -/
  inRange : signSummed body signer padding = asRun (sign body signer padding)
  /-- The program stops just if the preamble passes a machine word with the signature that is announced
  for it, or there is a chain and no room for a header of the size that is asked for and the body. -/
  stops : ∀ fault, sign body signer padding = .error (.stopped fault) ↔
    (fault = .sum ∧ ∃ bodySignature, signer.bodySignature body none = .ok bodySignature ∧
      sizeBound ≤ signer.dataKey.recordSize
        (Preamble.signedLength bodySignature signer.options.subkey)) ∨
    ∃ chain, chainFor signer body = .ok chain ∧ fault.MetBy (padding + body.length)
  /-- A header that is too small for the chain is refused. -/
  tooSmall : ∀ chain, chainFor signer body = .ok chain → padding ≠ 0 →
    padding < leadSize + chain.length → sign body signer padding
      = .error (.codec (.areaTooSmall (leadSize + chain.length) padding))
  /-- A header that has no length field is refused as long as the memory has room for the image. -/
  wide : ∀ chain, chainFor signer body = .ok chain → leadSize + chain.length ≤ padding →
    word32Bound ≤ padding → padding + body.length < allocationBound →
    sign body signer padding = .error (.codec (.nonCanonical .kernelSize))

theorem sign_of_chainFor (h : chainFor signer body = .ok chain) : sign body signer padding
    = assemble chain body (headerSizeFor chain padding) := by
  rw [sign_eq_bind, h]
  rfl

theorem signSummed_eq (keyblock : signer.keyblock.byteLength < allocationBound) :
    signSummed body signer padding = asRun (sign body signer padding) := by
  unfold signSummed
  rw [sign_eq_bind, chainForSummed, Signer.chainForSummed_eq keyblock]
  refine Sliced.asRun_bind fun chain h => ?_
  obtain ⟨small, -⟩ := lengths_of_chainFor h
  rw [← assembleSummed_eq small]
  unfold headerSizeFor
  split_ifs
  · rw [sums_leadSize small]
    rfl
  · rfl

/-- Both records of a chain and the body have lengths of 32 bits, so that an image that passes the
memory is one with a large header. -/
theorem padding_of_large (h : chainFor signer body = .ok chain)
    (large : allocationBound ≤ padding + body.length ∨
      allocationBound ≤ headerSizeFor chain padding + body.length) :
    headerSizeFor chain padding = padding ∧ leadSize + chain.length ≤ padding := by
  obtain ⟨small, short⟩ := lengths_of_chainFor h
  unfold headerSizeFor at large ⊢
  unfold allocationBound at large
  unfold word32Bound at small short
  split_ifs at large ⊢ with smallest
  · -- the smallest header and the body are far from the end of the memory
    omega
  · omega

theorem stops_sign_of_chainFor (h : chainFor signer body = .ok chain) :
    sign body signer padding = .error (.stopped fault) ↔ fault.MetBy (padding + body.length) := by
  rw [sign_of_chainFor h, stops_assemble]
  constructor
  -- a fault in either size means that the header has the size that was asked for
  · rintro ⟨-, met⟩
    obtain ⟨same, -⟩ := padding_of_large h (.inr met.large)
    rwa [same] at met
  · intro met
    obtain ⟨same, start⟩ := padding_of_large h (.inl met.large)
    rw [same]
    exact ⟨start, met⟩

theorem stops_sign : sign body signer padding = .error (.stopped fault) ↔
    (fault = .sum ∧ ∃ bodySignature, signer.bodySignature body none = .ok bodySignature ∧
      sizeBound ≤ signer.dataKey.recordSize
        (Preamble.signedLength bodySignature signer.options.subkey)) ∨
    ∃ chain, chainFor signer body = .ok chain ∧ fault.MetBy (padding + body.length) := by
  rw [sign_eq_bind, bind_eq_error, chainFor, Signer.stops_chainFor]
  refine or_congr Iff.rfl (exists_congr fun chain => and_congr_right fun h => ?_)
  rw [← sign_of_chainFor h]
  exact stops_sign_of_chainFor h

theorem signingSizes (keyblock : signer.keyblock.byteLength < allocationBound) (body : Bytes)
    (padding : Nat) : SigningSizes body signer padding where
  inRange := signSummed_eq keyblock
  stops _ := stops_sign
  tooSmall chain h asked short := sign_eq_areaTooSmall.2 ⟨chain, h, asked, short, rfl, rfl⟩
  wide chain h start wide room := by
    -- a header that holds the chain is not the one that is as small as possible
    have asked : headerSizeFor chain padding = padding := by
      refine if_neg fun zero => ?_
      unfold leadSize at start
      omega
    rw [sign_of_chainFor h, asked, assemble_of_wide start wide room]

end KernelImage

/-! ## Read-write images -/

namespace RwLayout

def bareSummed (length signatureSize : Nat) : Sliced Error RwLayout := do
  if length < signatureSize then
    throw (.failed (.codec (.areaTooSmall signatureSize length)))
  let dataLength ← Sliced.difference length signatureSize
  return { key := none, signature := ⟨dataLength, signatureSize⟩, data := ⟨0, dataLength⟩ }

theorem bareSummed_eq (length signatureSize : Nat) :
    bareSummed length signatureSize = settled (bare length signatureSize) := by
  unfold bareSummed bare
  split_ifs with short
  · rfl
  · rw [Sliced.difference_eq_ok (not_lt.1 short)]
    rfl

end RwLayout

namespace RwImage

def partSummed (i : RwImage) (area : Area) : Sliced Error Bytes :=
  match area.sliceSummed i.bytes with
  | some bs => .ok bs
  | none => .error (.failed (.internal .dataAreaOutOfRange))

def planSummed (i : RwImage) (key : SigningKey) (options : RwSignOptions) :
    Sliced Error (RwSignReport × Bytes × Option (Area × Bytes)) := do
  let data ← i.partSummed i.layout.data
  let dataSize := i.sizeToSign options.dataSize data.length
  if data.length < dataSize then
    throw (.failed (.policy (.bodySizeExceedsArea RwLayout.dataName dataSize data.length)))
  let signed ← data.cut 0 dataSize
  let signature ← settled (signRwData signed key)
  reserve (← signature.lengthSummed)
  let signatureBytes ← settled (filled signature.encode i.layout.signature RwLayout.signatureName)
  let keyBytes ← i.layout.key.mapM fun area => do
    let packed := packedKey key options.keyVersion
    reserve (← packed.lengthSummed)
    return (area, ← settled (filled (.ok packed.toBytes) area RwLayout.keyName))
  return ({ dataSize, signature, keyWritten := keyBytes.isSome }, signatureBytes, keyBytes)

variable {i : RwImage} {key : SigningKey} {options : RwSignOptions}

theorem partSummed_eq (memory : i.bytes.length < allocationBound) (area : Area) :
    i.partSummed area = settled (i.part area) := by
  unfold partSummed part
  rw [Area.sliceSummed_eq memory]
  cases area.slice i.bytes with
  | none => rfl
  | some bs => rfl

/-- The bytes to sign are cut out only after they have been found to be in the data. -/
theorem planSummed_eq (memory : i.bytes.length < allocationBound) (records : key.RecordsInMemory)
    (options : RwSignOptions) : i.planSummed key options = settled (i.plan key options) := by
  unfold planSummed plan
  rw [partSummed_eq memory]
  refine Sliced.settled_bind fun data _ => ?_
  by_cases long : data.length < i.sizeToSign options.dataSize data.length
  · simp only [long, ↓reduceIte]
    rfl
  simp only [long, ↓reduceIte]
  rw [Bytes.cut_to (not_lt.1 long)]
  refine Sliced.settled_bind fun signature hs => ?_
  have signatureRoom : signature.byteLength < allocationBound :=
    records.signature _ _ (signRwData_ok hs).signed
  rw [← bind_assoc, signature.lengthSummed_eq, Sliced.word_bind_reserve signatureRoom]
  refine Sliced.settled_bind fun signatureBytes _ => ?_
  cases i.layout.key with
  | none => rfl
  | some area =>
    have keyRoom : (packedKey key options.keyVersion).byteLength < allocationBound :=
      records.publicKey
    have reserved : ((packedKey key options.keyVersion).lengthSummed >>= reserve : Sliced Error Unit)
        = .ok () := by
      rw [PackedKey.lengthSummed_eq, Sliced.word_bind_reserve keyRoom]
    simp only [Option.mapM_some, ← bind_assoc, reserved]
    unfold packedKey
    generalize filled (.ok (PackedKey.toBytes _)) area RwLayout.keyName = stored
    cases stored <;> rfl

end RwImage

/-! ## All sizes -/

/-- Reading a preamble at any offset. -/
structure Preamble.OffsetSizes (area : Bytes) (offset : Nat) : Prop where
  inRange : parseSummed area offset = settled (parse area offset)
  /-- An offset whose sum passes a machine word is refused as such. -/
  passed : sizeBound ≤ offset + minSize → parse area offset = .error .truncated
  /-- An offset behind the area is refused with the exact end of the least preamble there. -/
  outside : offset + minSize < sizeBound → area.length < offset + minSize →
    parse area offset = .error (.outOfBounds (offset + minSize) area.length)
  inside : ∀ p, parse area offset = .ok p → offset + p.size.toNat ≤ area.length

/-- The layout of a bare image, for any space for its signature. -/
structure RwLayout.BareSizes (length signatureSize : Nat) : Prop where
  inRange : bareSummed length signatureSize = settled (bare length signatureSize)
  tooSmall : length < signatureSize →
    bare length signatureSize = .error (.codec (.areaTooSmall signatureSize length))
  /-- Otherwise data and signature make up the image. -/
  whole : signatureSize ≤ length → ∃ l, bare length signatureSize = .ok l ∧ l.data.offset = 0 ∧
    l.signature.offset = l.data.length ∧ l.data.length + l.signature.length = length

/-- Signing a read-write image, for any number of bytes to sign. -/
structure RwImage.SigningSizes (i : RwImage) (key : SigningKey) (options : RwSignOptions) :
    Prop where
  /-- The end of an area is cut off only where no image in memory has it. -/
  areas : ∀ (image : Bytes) (a : Area), image.length = i.bytes.length →
    a.sliceSummed image = a.slice image
  inRange : i.planSummed key options = settled (i.plan key options)
  stopsNever : ∀ fault, i.plan key options ≠ .error (.stopped fault)
  /-- More bytes than there are data are refused, and nothing is written. -/
  tooLarge : ∀ data size, i.part i.layout.data = .ok data → options.dataSize = some size →
    data.length < size → signIn i.layout key options i.bytes
      = .error (.policy (.bodySizeExceedsArea RwLayout.dataName size data.length)) i.bytes

/-- Preparing a slot, for any signed length that is asked for. -/
structure Signer.PreparationSizes (s : Signer) (image : Bytes) (slot : Slot)
    (bodyName chainName : String) (integrity : Bool) : Prop where
  inRange : s.prepareSummed image slot bodyName chainName integrity
    = settled (s.prepare image slot bodyName chainName integrity)
  reports : Reports (s.prepare image slot bodyName chainName integrity)
  tooLarge : ∀ body chain length, slot.body.slice image = some body →
    slot.chain.slice image = some chain → s.options.bodyLength slot.id = some length →
    body.length < length → s.prepare image slot bodyName chainName integrity
      = .error (.policy (.bodySizeExceedsArea bodyName length body.length))
  inBody : ∀ prepared, s.prepare image slot bodyName chainName integrity = .ok prepared →
    ∃ body, slot.body.slice image = some body ∧ prepared.bodyLength ≤ body.length

theorem Preamble.offsetSizes (area : Bytes) (offset : Nat) : OffsetSizes area offset where
  inRange := parseSummed_eq area offset
  passed passed := by
    unfold parse
    rw [if_pos passed]
    rfl
  outside fits short := by
    unfold parse
    rw [if_neg (not_le.2 fits), if_pos short]
    rfl
  inside p parsed := by
    obtain ⟨-, canonical, bs, encoded, start⟩ := parse_eq_ok_iff.1 parsed
    have least := minSize_le_byteLength p
    have fits := start.length_le
    rw [length_encode encoded, List.length_drop] at fits
    rw [canonical.size]
    unfold minSize headerSize at least
    omega

theorem RwLayout.bareSizes (length signatureSize : Nat) : BareSizes length signatureSize where
  inRange := bareSummed_eq length signatureSize
  tooSmall short := if_pos short
  whole room := ⟨_, if_neg (not_lt.2 room), rfl, rfl, Nat.sub_add_cancel room⟩

theorem RwImage.signingSizes {i : RwImage} {key : SigningKey}
    (memory : i.bytes.length < allocationBound) (records : key.RecordsInMemory)
    (options : RwSignOptions) : SigningSizes i key options where
  areas image a length := Area.sliceSummed_eq (length ▸ memory) a
  inRange := planSummed_eq memory records options
  stopsNever fault stopped := by
    cases hdata : i.part i.layout.data with
    | ok data => exact (reports_plan hdata).ne_stopped fault stopped
    | error e =>
      unfold plan at stopped
      rw [hdata] at stopped
      obtain rfl : e = .stopped fault := Except.error.inj stopped
      unfold part at hdata
      split at hdata <;> cases hdata
  tooLarge data size hdata asked long := by
    have refused : i.plan key options
        = .error (.policy (.bodySizeExceedsArea RwLayout.dataName size data.length)) := by
      have size_asked : i.sizeToSign options.dataSize data.length = size := by
        rw [asked]
        rfl
      unfold plan
      rw [hdata]
      dsimp only [bind, Except.bind]
      rw [size_asked, if_pos long]
      rfl
    unfold signIn
    rw [run_get_bind, refused]
    rfl

theorem Signer.preparationSizes {s : Signer} {image : Bytes}
    (memory : image.length < allocationBound) (slot : Slot) (bodyName chainName : String)
    (integrity : Bool) : PreparationSizes s image slot bodyName chainName integrity where
  inRange := prepareSummed_eq memory slot bodyName chainName integrity
  reports := reports_prepare
  tooLarge body chain length hbody hchain asked long := by
    have stated : s.statedLength slot.id body = some length := by
      unfold statedLength
      rw [asked]
      rfl
    unfold prepare
    rw [hbody, hchain]
    dsimp only
    unfold signedLength
    rw [stated]
    dsimp only
    rw [if_pos long]
    rfl
  inBody prepared h := by
    obtain ⟨-, -, body, hbody, fits, -⟩ := prepare_ok h
    exact ⟨body, hbody, fits⟩

/-- Whatever sizes the caller gives, sums and cuts are in range and sizes that nothing can have are
refused, except that the program stops where a key announces a signature with which the size of a record
passes a machine word, and where a header is asked for with which a kernel passes the memory. -/
theorem caller_sizes_in_range {key : SigningKey} (records : key.RecordsInMemory) {signer : Signer}
    (keyblock : signer.keyblock.byteLength < allocationBound) {image : Bytes}
    (inMemory : image.length < allocationBound) :
    (∀ offset, Preamble.OffsetSizes image offset) ∧
    (∀ signatureSize, RwLayout.BareSizes image.length signatureSize) ∧
    (∀ layout options, RwImage.SigningSizes ⟨image, layout⟩ key options) ∧
    (∀ slot bodyName chainName integrity,
      signer.PreparationSizes image slot bodyName chainName integrity) ∧
    (∀ dataKey flags, dataKey.version ≤ maxKeyVersion → key.SizedRecord
      (Keyblock.signedLength dataKey) (Keyblock.create dataKey flags key)
      (Keyblock.createSummed dataKey flags key)) ∧
    (∀ dataKey flags, maxKeyVersion < dataKey.version →
      Keyblock.createSummed dataKey flags key = settled (Keyblock.create dataKey flags key) ∧
      ∃ detail, Keyblock.create dataKey flags key = .error (.trust (.malformedKey detail))) ∧
    (∀ version flags bodySignature subkey, key.SizedRecord
      (Preamble.signedLength bodySignature subkey)
      (Preamble.create version flags bodySignature subkey key)
      (Preamble.createSummed version flags bodySignature subkey key)) ∧
    ∀ body padding, KernelImage.SigningSizes body signer padding :=
  ⟨Preamble.offsetSizes image, RwLayout.bareSizes image.length,
    fun _ options => RwImage.signingSizes inMemory records options,
    Signer.preparationSizes inMemory,
    fun _ _ version => Keyblock.sizedRecord_create version,
    fun _ _ version => Keyblock.create_of_version version,
    fun _ _ _ _ => Preamble.sizedRecord_create,
    KernelImage.signingSizes keyblock⟩

/-- The key of the sample signer, announcing signatures of `n` bytes and making signatures of one. -/
def Signer.announcing (n : Nat) : SigningKey := { sampleSigner.dataKey with signatureSize := n }

theorem Signer.recordsInMemory_announcing (n : Nat) : (announcing n).RecordsInMemory where
  signature data blob h := by
    cases h
    exact (by decide : Signature.headerSize + 1 < allocationBound)
  publicKey := (by decide : PackedKey.headerSize + 1 < allocationBound)

/-- The sample signer, asked to sign the largest number of bytes of each body. -/
def Signer.askingSigner : Signer :=
  { sampleSigner with
    options := { sampleSigner.options with bodyLength := fun _ => some (sizeBound - 1) } }

/-- The largest size is refused as the offset of a preamble, as the space for a signature, as the number
of bytes to sign and as the signed length of a slot. A signature and a header without length fields are
refused. The program stops at a signature and at a header of the largest size, where a sum is out of
range, and at a header that leaves the body no room in memory. -/
theorem Signer.largest_size_refused :
    Preamble.parse twoSlotImage (sizeBound - 1) = .error .truncated ∧
    RwLayout.bare 260 (sizeBound - 1) = .error (.codec (.areaTooSmall (sizeBound - 1) 260)) ∧
    RwImage.signIn ⟨none, ⟨0, 126⟩, ⟨126, 4⟩⟩ (announcing (sizeBound - 1)) ⟨some (sizeBound - 1), 1⟩
        twoSlotImage
      = .error (.policy (.bodySizeExceedsArea "EC_RW" (sizeBound - 1) 4)) twoSlotImage ∧
    prepare askingSigner twoSlotImage (.ofAreas .b ⟨256, 4⟩ ⟨130, 126⟩) "body" "chain" false
      = .error (.policy (.bodySizeExceedsArea "body" (sizeBound - 1) 4)) ∧
    Preamble.create 7 3 ⟨.classical, 1, 4, [2]⟩ none (announcing word32Bound)
      = .error (.codec (.nonCanonical .lengthField)) ∧
    KernelImage.sign [1, 2, 3] sampleSigner word32Bound
      = .error (.codec (.nonCanonical .kernelSize)) ∧
    Keyblock.create ⟨1, 5, [7]⟩ .all (announcing (sizeBound - 1)) = .error (.stopped .sum) ∧
    Keyblock.createSummed ⟨1, 5, [7]⟩ .all (announcing (sizeBound - 1)) = .error .outOfRange ∧
    KernelImage.sign [1, 2, 3] sampleSigner (sizeBound - 1) = .error (.stopped .sum) ∧
    KernelImage.signSummed [1, 2, 3] sampleSigner (sizeBound - 1) = .error .outOfRange ∧
    KernelImage.sign [1, 2, 3] sampleSigner (allocationBound - 1) = .error (.stopped .capacity) := by
  have keyblock : sampleSigner.keyblock.byteLength < allocationBound := by decide
  have askingKeyblock : askingSigner.keyblock.byteLength < allocationBound := keyblock
  have imageLength : twoSlotImage.length = 260 := by decide +kernel
  have inMemory : twoSlotImage.length < allocationBound := by
    rw [imageLength]
    decide
  obtain ⟨offsets, spaces, data, -, keyblocks, -, -, kernels⟩ :=
    caller_sizes_in_range (recordsInMemory_announcing (sizeBound - 1)) keyblock inMemory
  obtain ⟨-, -, -, slots, -, -, preambles, -⟩ :=
    caller_sizes_in_range (recordsInMemory_announcing word32Bound) askingKeyblock inMemory
  have run : (KernelImage.chainFor sampleSigner [1, 2, 3]).map List.length = .ok 124 := by
    decide +kernel
  obtain ⟨chain, hchain, length⟩ := map_eq_ok.1 run
  rw [imageLength] at spaces
  have announced := ((keyblocks ⟨1, 5, [7]⟩ .all (by decide)).stops .sum).2 ⟨rfl, by decide⟩
  have largest : KernelImage.sign [1, 2, 3] sampleSigner (sizeBound - 1) = .error (.stopped .sum) :=
    ((kernels _ _).stops _).2 (.inr ⟨chain, hchain, (by decide : sizeBound ≤ sizeBound - 1 + 3)⟩)
  refine ⟨(offsets _).passed (by decide), (spaces _).tooSmall (by decide),
    (data _ _).tooLarge [1, 2, 3, 4] _ (by decide +kernel) rfl (by decide),
    (slots _ _ _ _).tooLarge [5, 6, 7, 8] (List.replicate 126 0xff) _ (by decide +kernel)
      (by decide +kernel) rfl (by decide),
    (preambles _ _ _ _).refused (by decide) (by decide),
    (kernels _ _).wide chain hchain (by rw [length]; decide) le_rfl (by decide),
    announced, ?_, largest, ?_, ((kernels _ _).stops _).2 (.inr ⟨chain, hchain, ?_, ?_⟩)⟩
  · rw [(keyblocks _ _ (by decide)).inRange]
    exact Sliced.asRun_eq_outOfRange.2 ⟨_, announced⟩
  · rw [(kernels _ _).inRange]
    exact Sliced.asRun_eq_outOfRange.2 ⟨_, largest⟩
  · exact (by decide : allocationBound ≤ allocationBound - 1 + 3)
  · exact (by decide : allocationBound - 1 + 3 < sizeBound)

/-- The largest size is announced for a signature, and a header is asked for that leaves a body of one
byte no room in memory. No record and no image has such a size in a length field, but neither size is
refused: the sum with it is out of range, or else the room for it, and the program stops. -/
theorem Signer.unrefused_sizes_stop :
    word32Bound ≤ (announcing (sizeBound - 1)).recordSize (Keyblock.signedLength ⟨1, 5, [7]⟩) ∧
    Keyblock.createSummed ⟨1, 5, [7]⟩ .all (announcing (sizeBound - 1)) = .error .outOfRange ∧
    Keyblock.create ⟨1, 5, [7]⟩ .all (announcing (sizeBound - 1)) = .error (.stopped .sum) ∧
    Preamble.create 7 3 ⟨.classical, 1, 4, [2]⟩ none (announcing (sizeBound - 1))
      = .error (.stopped .sum) ∧
    KernelImage.assembleSummed [] [1] (allocationBound - 1) = .error .outOfRange ∧
    KernelImage.assemble [] [1] (allocationBound - 1) = .error (.stopped .capacity) := by
  decide +kernel

end VerifiedBoot
