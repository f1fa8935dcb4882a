/-
Sums of sizes that may be out of range. A sum is made summand by summand, and each result must fit into
a machine word. Made in this way a sum fits just if the whole sum does, so that the length of a record
is what its fields say. The writing of records is written once more with such sums, and so is the
reading of a preamble at an offset that may be any size: all of it is settled, for records whose fields
lie in memory together.
-/
import VerifiedBoot.Proofs.Bounds.Chains
import VerifiedBoot.Proofs.Signing.Sizes

namespace VerifiedBoot

variable {ε α : Type}

open Sliced (settled)

/-! ## Sums -/

namespace Sliced

/-- A size, if it fits into a machine word. -/
def word (n : Nat) : Sliced ε Nat := if n < sizeBound then .ok n else .error .outOfRange

/-- A sum of sizes, made from the left. -/
def sums (sizes : List Nat) : Sliced ε Nat := sizes.foldlM (fun a b => word (a + b)) 0

/-- A sum of sizes with an error of its own for one that does not fit. -/
def sumsOr (e : ε) (sizes : List Nat) : Sliced ε Nat :=
  match (sums sizes : Sliced ε Nat) with
  | .ok n => .ok n
  | .error _ => .error (.failed e)

def difference (a b : Nat) : Sliced ε Nat := if b ≤ a then .ok (a - b) else .error .outOfRange

/-- Room for a new byte string of `n` bytes. -/
def reserve (n : Nat) : Sliced ε Unit := if n < allocationBound then .ok () else .error .outOfRange

variable {n m : Nat}

theorem word_eq_ok (h : n < sizeBound) : (word n : Sliced ε Nat) = .ok n := if_pos h

theorem word_eq_outOfRange (h : sizeBound ≤ n) : (word n : Sliced ε Nat) = .error .outOfRange :=
  if_neg (not_lt.2 h)

theorem difference_eq_ok (h : m ≤ n) : (difference n m : Sliced ε Nat) = .ok (n - m) := if_pos h

theorem reserve_eq_ok (h : n < allocationBound) : (reserve n : Sliced ε Unit) = .ok () := if_pos h

/-- What is made of a size by adding to it is a size just if the whole fits. -/
theorem word_bind {f : Nat → Sliced ε Nat} (le : n ≤ m) (h : n < sizeBound → f n = word m) :
    (word n >>= f) = word m := by
  by_cases fits : n < sizeBound
  · rw [word_eq_ok fits]
    exact h fits
  · have passed := not_lt.1 fits
    rw [word_eq_outOfRange passed, word_eq_outOfRange (passed.trans le)]
    rfl

theorem word_bind_reserve (h : n < allocationBound) :
    (word n >>= reserve : Sliced ε Unit) = .ok () := by
  rw [word_eq_ok (h.trans (by decide))]
  exact reserve_eq_ok h

/-- A sum fits at every step just if it fits as a whole. -/
theorem sums_eq (sizes : List Nat) : (sums sizes : Sliced ε Nat) = word sizes.sum := by
  have from_left (sizes : List Nat) : ∀ n, n < sizeBound →
      sizes.foldlM (fun a b => word (a + b)) n = (word (n + sizes.sum) : Sliced ε Nat) := by
    induction sizes with
    | nil =>
      intro n fits
      exact (word_eq_ok fits).symm
    | cons b sizes ih =>
      intro n _
      rw [List.foldlM_cons, List.sum_cons, ← Nat.add_assoc]
      exact word_bind (Nat.le_add_right _ _) (ih _)
  rw [sums, from_left sizes 0 (by decide), Nat.zero_add]

/-- The program makes its sums as one that checks every step, and stops where that is out of range. -/
theorem asRun_sizeSum (sizes : List Nat) : asRun (sizeSum sizes) = sums sizes := by
  rw [sums_eq, sizeSum_eq]
  unfold word
  split_ifs
  · rfl
  · rfl

theorem asRun_ensureCapacity (n : Nat) : asRun (ensureCapacity n) = reserve n := by
  unfold ensureCapacity reserve
  split_ifs
  · rfl
  · rfl

theorem sumsOr_eq (e : ε) (sizes : List Nat) : sumsOr e sizes
    = if sizes.sum < sizeBound then .ok sizes.sum else .error (.failed e) := by
  unfold sumsOr
  rw [sums_eq]
  split_ifs with fits
  · rw [word_eq_ok fits]
  · rw [word_eq_outOfRange (not_lt.1 fits)]

/-- Encodes a record, its signed part and its signature, if the length of all its fields is the size
that it declares. -/
def encodeRecord (declared : UInt32) (length : Sliced CodecError Nat)
    (signed : Except CodecError Bytes) (signature : Signature) : Sliced CodecError Bytes := do
  let actual ← length
  if declared.toNat ≠ actual then
    throw (.failed (.sizeMismatch declared.toNat actual))
  reserve actual
  let signed ← settled signed
  return signed ++ (← settled signature.encode)

/-- A record whose length has been found to be the declared one has a length of 32 bits. -/
theorem encodeRecord_eq {declared : UInt32} {length : Sliced CodecError Nat} {actual : Nat}
    {signed : Except CodecError Bytes} {signature : Signature} (h : length = word actual)
    (fits : actual < sizeBound) :
    encodeRecord declared length signed signature = settled (do
      if declared.toNat ≠ actual then
        throw (.sizeMismatch declared.toNat actual)
      return (← signed) ++ (← signature.encode)) := by
  unfold encodeRecord
  rw [h, word_eq_ok fits]
  show (if _ then _ else _) = _
  split_ifs with other
  · rfl
  · have room : actual < allocationBound := by
      have bound := declared.toNat_lt
      unfold allocationBound
      omega
    rw [reserve_eq_ok room]
    exact settled_bind fun signed _ => settled_bind fun _ _ => rfl

end Sliced

open Sliced (word sums sumsOr reserve encodeRecord)

/-! ## Lengths of records -/

def PackedKey.lengthSummed (k : PackedKey) : Sliced ε Nat := sums [headerSize, k.material.length]

def Signature.lengthSummed (s : Signature) : Sliced ε Nat := sums [headerSize, s.blob.length]

def Keyblock.lengthSummed (k : Keyblock) : Sliced ε Nat := do
  let keyLength ← k.dataKey.lengthSummed
  let signatureLength ← k.signature.lengthSummed
  sums [headerSize, keyLength, checksumSize, signatureLength]

namespace Preamble

def subkeyLengthSummed : Option PackedKey → Sliced ε Nat
  | none => .ok 0
  | some key => key.lengthSummed

def signedLengthSummed (bodySignature : Signature) (subkey : Option PackedKey) : Sliced ε Nat := do
  let bodySignatureLength ← bodySignature.lengthSummed
  let subkeyLength ← subkeyLengthSummed subkey
  sums [headerSize, bodySignatureLength, 1, subkeyLength]

def lengthSummed (p : Preamble) : Sliced ε Nat := do
  let signedLength ← signedLengthSummed p.bodySignature p.subkey
  let signatureLength ← p.signature.lengthSummed
  sums [signedLength, signatureLength]

end Preamble

theorem PackedKey.lengthSummed_eq (k : PackedKey) :
    (k.lengthSummed : Sliced ε Nat) = word k.byteLength :=
  Sliced.sums_eq _

theorem Signature.lengthSummed_eq (s : Signature) :
    (s.lengthSummed : Sliced ε Nat) = word s.byteLength :=
  Sliced.sums_eq _

theorem Keyblock.lengthSummed_eq (k : Keyblock) :
    (k.lengthSummed : Sliced ε Nat) = word k.byteLength := by
  unfold lengthSummed
  rw [PackedKey.lengthSummed_eq, Signature.lengthSummed_eq]
  refine Sliced.word_bind (by unfold byteLength; omega) fun _ => ?_
  refine Sliced.word_bind (by unfold byteLength; omega) fun _ => ?_
  rw [Sliced.sums_eq]
  simp only [List.sum_cons, List.sum_nil, byteLength]
  congr 1
  omega

namespace Preamble

theorem subkeyLengthSummed_eq (subkey : Option PackedKey) :
    (subkeyLengthSummed subkey : Sliced ε Nat) = word (subkeyLength subkey) := by
  cases subkey with
  | none => rfl
  | some key => exact key.lengthSummed_eq

theorem signedLengthSummed_eq (bodySignature : Signature) (subkey : Option PackedKey) :
    (signedLengthSummed bodySignature subkey : Sliced ε Nat)
      = word (signedLength bodySignature subkey) := by
  unfold signedLengthSummed
  rw [Signature.lengthSummed_eq, subkeyLengthSummed_eq]
  refine Sliced.word_bind (by unfold signedLength; omega) fun _ => ?_
  refine Sliced.word_bind (by unfold signedLength; omega) fun _ => ?_
  rw [Sliced.sums_eq]
  simp only [List.sum_cons, List.sum_nil, signedLength]
  congr 1
  omega

theorem lengthSummed_eq (p : Preamble) : (p.lengthSummed : Sliced ε Nat) = word p.byteLength := by
  unfold lengthSummed
  rw [signedLengthSummed_eq, Signature.lengthSummed_eq]
  refine Sliced.word_bind (Nat.le_add_right _ _) fun _ => ?_
  refine Sliced.word_bind (Nat.le_add_left _ _) fun _ => ?_
  rw [Sliced.sums_eq]
  rfl

end Preamble

/-! ## Encodings -/

namespace Keyblock

def encodeSummed (k : Keyblock) : Sliced CodecError Bytes :=
  encodeRecord k.size k.lengthSummed k.signedBytes k.signature

/-- An encoding is as long as its record declares. -/
theorem length_encode_lt {k : Keyblock} {bs : Bytes} (h : k.encode = .ok bs) :
    bs.length < word32Bound := by
  rw [length_encode h, ← (encode_eq_ok.1 h).1]
  exact k.size.toNat_lt

theorem encodeSummed_eq {k : Keyblock} (fits : k.byteLength < sizeBound) :
    k.encodeSummed = settled k.encode :=
  Sliced.encodeRecord_eq k.lengthSummed_eq fits

end Keyblock

namespace Preamble

def encodeSummed (p : Preamble) : Sliced CodecError Bytes :=
  encodeRecord p.size p.lengthSummed p.signedBytes p.signature

theorem length_encode_lt {p : Preamble} {bs : Bytes} (h : p.encode = .ok bs) :
    bs.length < word32Bound := by
  rw [length_encode h, ← (encode_eq_ok.1 h).1]
  exact p.size.toNat_lt

theorem encodeSummed_eq {p : Preamble} (fits : p.byteLength < sizeBound) :
    p.encodeSummed = settled p.encode :=
  Sliced.encodeRecord_eq p.lengthSummed_eq fits

end Preamble

namespace TrustChain

def encodeSummed (c : TrustChain) (capacity : Nat) : Sliced CodecError Bytes := do
  let keyblock ← c.keyblock.encodeSummed
  let bs := keyblock ++ (← c.preamble.encodeSummed)
  if capacity < bs.length then
    throw (.failed (.areaTooSmall bs.length capacity))
  return bs

theorem encodeSummed_eq {c : TrustChain} (keyblock : c.keyblock.byteLength < sizeBound)
    (preamble : c.preamble.byteLength < sizeBound) (capacity : Nat) :
    c.encodeSummed capacity = settled (c.encode capacity) := by
  unfold encodeSummed encode
  rw [Keyblock.encodeSummed_eq keyblock, Preamble.encodeSummed_eq preamble]
  refine Sliced.settled_bind fun k _ => Sliced.settled_bind fun p _ => ?_
  dsimp only
  split_ifs
  · rfl
  · rfl

end TrustChain

/-! ## Reading preambles -/

namespace Preamble

def parseSummed (area : Bytes) (offset : Nat) : Sliced CodecError Preamble := do
  let needed ← sumsOr .truncated [offset, minSize]
  if area.length < needed then
    throw (.failed (.outOfBounds needed area.length))
  let rest ← area.cut offset area.length
  let size ← settled ((readSize rest.length).parse rest)
  let record ← rest.cut 0 size.toNat
  settled ((readFields size).parseFrom record 4)

/-- The one sum that an offset goes into has an error of its own. -/
theorem parseSummed_eq (area : Bytes) (offset : Nat) :
    parseSummed area offset = settled (parse area offset) := by
  rw [← parseSliced_eq]
  unfold parseSummed parseSliced
  have sum : [offset, minSize].sum = offset + minSize := rfl
  rw [Sliced.sumsOr_eq, sum]
  by_cases passed : sizeBound ≤ offset + minSize
  · rw [if_neg (not_lt.2 passed), if_pos passed]
    rfl
  · rw [if_pos (not_le.1 passed), if_neg passed]
    rfl

end Preamble

end VerifiedBoot
