/-
New records and the sizes that keys announce. A record contains its own size, which is a sum with the
size that the signing key announces for its signature. The key may announce any size. As long as the
sum fits into a machine word, so does each sum before it, and it is refused if it has no length field,
before anything is signed. Where it passes a machine word the program stops.
-/
import VerifiedBoot.Proofs.Bounds.Sums

namespace VerifiedBoot

open Sliced (settled asRun word sums reserve)

/-! ## Declared sizes -/

namespace SigningKey

/-- The size of a record with a signature of the key after a part of `signedSize` bytes. -/
def recordSize (key : SigningKey) (signedSize : Nat) : Nat :=
  signedSize + Signature.headerSize + key.signatureSize

/-- The sizes of a new record and of its signed part, which stand in the record and its signature. -/
def declaredSizes (key : SigningKey) (signedSize : Nat) : Except Error (UInt32 × UInt32) := do
  let size ← liftCodec (toLength .lengthField
    (← sizeSum [signedSize, Signature.headerSize, key.signatureSize]))
  return (size, ← liftCodec (toLength .lengthField signedSize))

def declaredSizesSummed (key : SigningKey) (signedLength : Sliced Error Nat) :
    Sliced Error (UInt32 × UInt32) := do
  let signedSize ← signedLength
  let recordSize ← sums [signedSize, Signature.headerSize, key.signatureSize]
  let size ← settled (liftCodec (toLength .lengthField recordSize))
  let dataSize ← settled (liftCodec (toLength .lengthField signedSize))
  reserve recordSize
  return (size, dataSize)

variable {key : SigningKey} {signedSize : Nat}

theorem le_recordSize (key : SigningKey) (signedSize : Nat) : signedSize ≤ key.recordSize signedSize :=
  (Nat.le_add_right _ _).trans (Nat.le_add_right _ _)

theorem sum_recordSize (key : SigningKey) (signedSize : Nat) :
    [signedSize, Signature.headerSize, key.signatureSize].sum = key.recordSize signedSize := by
  simp only [List.sum_cons, List.sum_nil, recordSize]
  omega

/-- Every sum is in range, or the program stops at it. -/
theorem declaredSizesSummed_eq (key : SigningKey) (signedSize : Nat) :
    key.declaredSizesSummed (word signedSize) = asRun (key.declaredSizes signedSize) := by
  unfold declaredSizesSummed declaredSizes
  by_cases fits : signedSize < sizeBound
  · rw [Sliced.word_eq_ok fits]
    show (sums _ >>= _) = _
    rw [← Sliced.asRun_sizeSum]
    refine Sliced.asRun_bind fun recordSize _ => ?_
    rw [(Reports.codec (toLength _ recordSize)).settled_eq_asRun,
      (Reports.codec (toLength _ signedSize)).settled_eq_asRun]
    refine Sliced.asRun_bind fun size hsize => Sliced.asRun_bind fun dataSize _ => ?_
    -- the size has found its place in a word of 32 bits
    have room : recordSize < allocationBound := by
      rw [← toLength_eq_ok.1 (liftCodec_eq_ok.1 hsize)]
      have bound := size.toNat_lt
      unfold allocationBound
      omega
    rw [Sliced.reserve_eq_ok room]
    rfl
  · -- the part that is signed passes a machine word by itself, and the program stops at the whole
    have passed : sizeBound ≤ [signedSize, Signature.headerSize, key.signatureSize].sum := by
      rw [sum_recordSize]
      exact (not_lt.1 fits).trans (le_recordSize key signedSize)
    rw [Sliced.word_eq_outOfRange (not_lt.1 fits), sizeSum_eq_stopped.2 ⟨rfl, passed⟩]
    rfl

theorem stops_declaredSizes {fault : SizeFault} :
    key.declaredSizes signedSize = .error (.stopped fault) ↔
      fault = .sum ∧ sizeBound ≤ key.recordSize signedSize := by
  rw [← sum_recordSize, ← sizeSum_eq_stopped]
  exact Reports.bind_stopped_iff fun _ _ =>
    (Reports.codec _).bind fun _ _ => (Reports.codec _).bind fun _ _ => .ok _

theorem declaredSizes_of_wide (wide : word32Bound ≤ key.recordSize signedSize)
    (fits : key.recordSize signedSize < sizeBound) :
    key.declaredSizes signedSize = .error (.codec (.nonCanonical .lengthField)) := by
  rw [← sum_recordSize] at wide fits
  unfold declaredSizes
  rw [sizeSum_eq_ok.2 ⟨fits, rfl⟩]
  show (liftCodec (toLength _ _) >>= _) = _
  rw [toLength, if_neg (not_lt.2 wide)]
  rfl

/-- Sizes that were declared have length fields. -/
theorem recordSize_lt_of_declaredSizes {sizes : UInt32 × UInt32}
    (h : key.declaredSizes signedSize = .ok sizes) : key.recordSize signedSize < word32Bound := by
  simp only [declaredSizes, bind_eq_ok, sizeSum_eq_ok, liftCodec_eq_ok, toLength_eq_ok,
    sum_recordSize] at h
  obtain ⟨_, ⟨-, rfl⟩, size, hsize, -⟩ := h
  rw [← hsize]
  exact size.toNat_lt

end SigningKey

/-! ## New records -/

namespace SigningKey
variable {α : Type}

/-- Making a record signed by a key, for any size that the key announces: as it is made, and as it is
made with sums that may be out of range. -/
structure SizedRecord (key : SigningKey) (signedSize : Nat) (made : Except Error α)
    (summed : Sliced Error α) : Prop where
  /-- Each sum and each reservation is in range, or the program stops at it. -/
  inRange : summed = asRun made
  /-- The program stops just at a size that passes a machine word. -/
  stops : ∀ fault, made = .error (.stopped fault) ↔
    fault = .sum ∧ sizeBound ≤ key.recordSize signedSize
  /-- A size that has no length field is refused before anything is signed. -/
  refused : word32Bound ≤ key.recordSize signedSize → key.recordSize signedSize < sizeBound →
    made = .error (.codec (.nonCanonical .lengthField))

/-- A record that is made with the declared sizes, and then only fails with what is reported. -/
theorem sizedRecord_of_declaredSizes {key : SigningKey} {signedSize : Nat}
    {made : UInt32 × UInt32 → Except Error α} {summed : UInt32 × UInt32 → Sliced Error α}
    (settles : ∀ sizes, key.declaredSizes signedSize = .ok sizes → summed sizes = settled (made sizes))
    (reports : ∀ sizes, Reports (made sizes)) :
    key.SizedRecord signedSize (key.declaredSizes signedSize >>= made)
      (key.declaredSizesSummed (word signedSize) >>= summed) where
  inRange := by
    rw [declaredSizesSummed_eq]
    exact Sliced.asRun_bind fun sizes h => (settles sizes h).trans (reports sizes).settled_eq_asRun
  stops fault := (Reports.bind_stopped_iff fun sizes _ => reports sizes).trans stops_declaredSizes
  refused wide fits := by
    rw [declaredSizes_of_wide wide fits]
    rfl

end SigningKey

namespace Keyblock
variable {dataKey : PackedKey} {flags : KeyblockFlags} {signer : SigningKey} {k : Keyblock}

/-- The size of the part of a keyblock that is signed. -/
def signedLength (dataKey : PackedKey) : Nat := headerSize + dataKey.byteLength + checksumSize

def signedLengthSummed (dataKey : PackedKey) : Sliced Error Nat := do
  sums [headerSize, ← dataKey.lengthSummed, checksumSize]

/-- The keyblock of declared sizes, before it is signed. -/
def blank (dataKey : PackedKey) (flags : KeyblockFlags) (signer : SigningKey)
    (sizes : UInt32 × UInt32) : Keyblock :=
  { headerVersion := currentVersion, size := sizes.1, flags, dataKey, checksum := ByteBlock.zeros 32,
    signature := Signature.classical signer.algorithm sizes.2 [] }

/-- Puts checksum and signature into a blank keyblock. -/
def signBlank (k : Keyblock) (signer : SigningKey) : Except Error Keyblock := do
  let checked ← liftCodec k.checkedBytes
  let checksum := sha256 checked
  let blob ← liftTrust (signer.signSized (checked ++ checksum.bytes))
  return { k with checksum, signature := { k.signature with blob } }

def signBlankSummed (k : Keyblock) (signer : SigningKey) : Sliced Error Keyblock := do
  let checked ← settled (liftCodec k.checkedBytes)
  let checksum := sha256 checked
  reserve (← k.lengthSummed)
  let blob ← settled (liftTrust (signer.signSized (checked ++ checksum.bytes)))
  return { k with checksum, signature := { k.signature with blob } }

/-- A version that is out of range is refused before any sum is made. -/
def createSummed (dataKey : PackedKey) (flags : KeyblockFlags) (signer : SigningKey) :
    Sliced Error Keyblock :=
  if maxKeyVersion < dataKey.version then
    settled (create dataKey flags signer)
  else do
    let sizes ← signer.declaredSizesSummed (signedLengthSummed dataKey)
    (blank dataKey flags signer sizes).signBlankSummed signer

theorem create_eq (version : dataKey.version ≤ maxKeyVersion) : create dataKey flags signer
    = signer.declaredSizes (signedLength dataKey) >>= fun sizes =>
      (blank dataKey flags signer sizes).signBlank signer := by
  unfold create
  rw [if_neg (UInt32.not_lt.2 version)]
  simp only [SigningKey.declaredSizes, bind_assoc, pure_bind]
  rfl

theorem signedLengthSummed_eq (dataKey : PackedKey) :
    signedLengthSummed dataKey = word (signedLength dataKey) := by
  unfold signedLengthSummed
  rw [PackedKey.lengthSummed_eq]
  refine Sliced.word_bind (by unfold signedLength; omega) fun _ => ?_
  rw [Sliced.sums_eq]
  simp only [List.sum_cons, List.sum_nil, signedLength]
  congr 1

theorem signBlankSummed_eq (small : k.byteLength < word32Bound) :
    k.signBlankSummed signer = settled (k.signBlank signer) := by
  unfold signBlankSummed signBlank
  refine Sliced.settled_bind fun checked _ => ?_
  rw [← bind_assoc, lengthSummed_eq, Sliced.word_bind_reserve (small.trans (by decide))]
  exact Sliced.settled_bind fun blob _ => rfl

theorem reports_signBlank (k : Keyblock) : Reports (k.signBlank signer) :=
  (Reports.codec _).bind fun _ _ => (Reports.trust _).bind fun _ _ => .ok _

/-- A keyblock for a data key of a version in range. -/
theorem sizedRecord_create (version : dataKey.version ≤ maxKeyVersion) :
    signer.SizedRecord (signedLength dataKey) (create dataKey flags signer)
      (createSummed dataKey flags signer) := by
  have summed : createSummed dataKey flags signer
      = signer.declaredSizesSummed (word (signedLength dataKey)) >>= fun sizes =>
        (blank dataKey flags signer sizes).signBlankSummed signer := by
    unfold createSummed
    rw [if_neg (UInt32.not_lt.2 version), signedLengthSummed_eq]
  rw [create_eq version, summed]
  refine SigningKey.sizedRecord_of_declaredSizes (fun sizes declared => ?_) fun _ => reports_signBlank _
  -- without its signature the keyblock is no longer than with it
  exact signBlankSummed_eq ((Nat.le_add_right _ signer.signatureSize).trans_lt
    (SigningKey.recordSize_lt_of_declaredSizes declared))

/-- A version that is out of range is refused whatever the sizes are. -/
theorem create_of_version (version : maxKeyVersion < dataKey.version) :
    createSummed dataKey flags signer = settled (create dataKey flags signer) ∧
      ∃ detail, create dataKey flags signer = .error (.trust (.malformedKey detail)) :=
  ⟨if_pos version, _, if_pos version⟩

end Keyblock

namespace Preamble
variable {version : UInt16} {flags : UInt32} {bodySignature : Signature} {subkey : Option PackedKey}
  {signer : SigningKey} {p : Preamble}

/-- The preamble of declared sizes, before it is signed. -/
def blank (version : UInt16) (flags : UInt32) (bodySignature : Signature) (subkey : Option PackedKey)
    (signer : SigningKey) (sizes : UInt32 × UInt32) : Preamble :=
  { size := sizes.1, headerVersion := currentVersion, version, flags, bodySignature, subkey,
    signature := Signature.classical signer.algorithm sizes.2 [] }

/-- Signs a blank preamble. -/
def signBlank (p : Preamble) (signer : SigningKey) : Except Error Preamble := do
  let signed ← liftCodec p.signedBytes
  let blob ← liftTrust (signer.signSized signed)
  return { p with signature := { p.signature with blob } }

def signBlankSummed (p : Preamble) (signer : SigningKey) : Sliced Error Preamble := do
  reserve (← p.lengthSummed)
  let signed ← settled (liftCodec p.signedBytes)
  let blob ← settled (liftTrust (signer.signSized signed))
  return { p with signature := { p.signature with blob } }

def createSummed (version : UInt16) (flags : UInt32) (bodySignature : Signature)
    (subkey : Option PackedKey) (signer : SigningKey) : Sliced Error Preamble := do
  let sizes ← signer.declaredSizesSummed (signedLengthSummed bodySignature subkey)
  (blank version flags bodySignature subkey signer sizes).signBlankSummed signer

theorem create_eq : create version flags bodySignature subkey signer
    = signer.declaredSizes (signedLength bodySignature subkey) >>= fun sizes =>
      (blank version flags bodySignature subkey signer sizes).signBlank signer := by
  unfold create
  simp only [SigningKey.declaredSizes, bind_assoc, pure_bind]
  rfl

theorem signBlankSummed_eq (small : p.byteLength < word32Bound) :
    p.signBlankSummed signer = settled (p.signBlank signer) := by
  unfold signBlankSummed signBlank
  rw [← bind_assoc, lengthSummed_eq, Sliced.word_bind_reserve (small.trans (by decide))]
  exact Sliced.settled_bind fun signed _ => Sliced.settled_bind fun blob _ => rfl

theorem reports_signBlank (p : Preamble) : Reports (p.signBlank signer) :=
  (Reports.codec _).bind fun _ _ => (Reports.trust _).bind fun _ _ => .ok _

theorem sizedRecord_create : signer.SizedRecord (signedLength bodySignature subkey)
    (create version flags bodySignature subkey signer)
    (createSummed version flags bodySignature subkey signer) := by
  unfold createSummed
  rw [create_eq, signedLengthSummed_eq]
  refine SigningKey.sizedRecord_of_declaredSizes (fun sizes declared => ?_) fun _ => reports_signBlank _
  exact signBlankSummed_eq ((Nat.le_add_right _ signer.signatureSize).trans_lt
    (SigningKey.recordSize_lt_of_declaredSizes declared))

end Preamble

end VerifiedBoot
