/-
Records are signed as they are made: the signature is of the bytes over which it is checked, of the
size that it declares and of the algorithm of the key that made it. A keyblock or a preamble that is
made is canonical: its size was fixed before it was signed, by the size that the key announced, and
the signature has that size.
-/
import VerifiedBoot.Signer
import VerifiedBoot.Proofs.Verification.Checks

namespace VerifiedBoot

/-! ## Signatures -/

theorem SigningKey.signSized_eq_ok {key : SigningKey} {data blob : Bytes} :
    key.signSized data = .ok blob ↔ key.sign data = .ok blob ∧ blob.length = key.signatureSize := by
  unfold signSized
  rw [bind_eq_ok]
  constructor
  · rintro ⟨b, hb, h⟩
    split_ifs at h with hl
    cases h
    exact ⟨hb, hl⟩
  · rintro ⟨hb, hl⟩
    exact ⟨blob, hb, if_pos hl⟩

/-- A signature record that a private key has made of some data. -/
structure Signature.MadeBy (s : Signature) (signer : SigningKey) (data : Bytes) : Prop where
  kind : s.kind = .classical
  algorithm : s.algorithm = signer.algorithm.raw
  dataSize : s.dataSize.toNat = data.length
  signed : signer.sign data = .ok s.blob

/-- A signature that was made passes its check, where the primitives accept what the key signs. -/
theorem Signature.MadeBy.verifyData {s : Signature} {signer : SigningKey} {data : Bytes}
    {key : PackedKey} {primitives : TrustPrimitives} (h : s.MadeBy signer data)
    (algorithm : key.algorithm = signer.algorithm.raw)
    (accepts : ∀ data blob, signer.sign data = .ok blob → primitives.verify key data blob = .ok ()) :
    s.verifyData key data primitives = .ok () :=
  verifyData_eq_ok.2
    ⟨h.kind, h.dataSize, h.algorithm.trans algorithm.symm, accepts _ _ h.signed⟩

/-- A signature record that holds the digest of the metadata of a range, and the range matches them. -/
structure Signature.DigestOf (signature : Signature) (payload : PayloadFormat)
    (primitives : TrustPrimitives) (signed : Bytes) : Prop where
  kind : signature.kind = .digest
  dataSize : signature.dataSize.toNat = signed.length
  hash : ∃ hash, payload.metadataHash signed primitives = some hash ∧
    signature.algorithm = hash.algorithm.raw ∧ signature.blob = hash.digest
  matched : payload.contentMatches signed primitives = true

/-! ## Preambles -/

namespace Preamble

/-- A preamble is made of what was asked for, and signed over its own bytes. -/
theorem create_ok {version : UInt16} {flags : UInt32} {bodySignature : Signature}
    {subkey : Option PackedKey} {signer : SigningKey} {p : Preamble}
    (h : create version flags bodySignature subkey signer = .ok p) :
    (∃ size signature,
      p = { size, headerVersion := 1, version, flags, bodySignature, subkey, signature }) ∧
      ∃ signed, p.signedBytes = .ok signed ∧ p.signature.MadeBy signer signed := by
  simp only [create, bind_eq_ok, pure_eq_ok, liftCodec_eq_ok, liftTrust_eq_ok, toLength_eq_ok,
    SigningKey.signSized_eq_ok] at h
  obtain ⟨_, -, size, -, dataSize, hdata, signed, hs, blob, ⟨hblob, -⟩, rfl⟩ := h
  refine ⟨⟨_, _, rfl⟩, signed, hs, rfl, rfl, ?_, hblob⟩
  rw [length_signedBytes hs]
  exact hdata

/-- The signature has the size that was announced for it, so that the preamble has the size that was
signed. -/
theorem canonical_of_create {version : UInt16} {flags : UInt32} {bodySignature : Signature}
    {subkey : Option PackedKey} {signer : SigningKey} {p : Preamble}
    (h : create version flags bodySignature subkey signer = .ok p) :
    p.Canonical ∧ p.signature.blob.length = signer.signatureSize := by
  simp only [create, bind_eq_ok, pure_eq_ok, liftCodec_eq_ok, liftTrust_eq_ok, toLength_eq_ok,
    sizeSum_eq_ok, SigningKey.signSized_eq_ok] at h
  obtain ⟨_, ⟨-, rfl⟩, size, hsize, _, -, _, -, blob, ⟨-, length⟩, rfl⟩ := h
  rw [← length] at hsize
  exact ⟨⟨rfl, hsize⟩, length⟩

theorem verifySignature_of_madeBy {p : Preamble} {signer : SigningKey} {signed : Bytes}
    {key : PackedKey} {primitives : TrustPrimitives} (hs : p.signedBytes = .ok signed)
    (h : p.signature.MadeBy signer signed) (algorithm : key.algorithm = signer.algorithm.raw)
    (accepts : ∀ data blob, signer.sign data = .ok blob → primitives.verify key data blob = .ok ()) :
    p.verifySignature key primitives = .ok () :=
  verifySignature_eq_ok.2 ⟨signed, hs, h.verifyData algorithm accepts⟩

end Preamble

/-! ## Keyblocks -/

namespace Keyblock
variable {dataKey : PackedKey} {flags : KeyblockFlags} {signer : SigningKey} {k : Keyblock}

/-- A keyblock that is made for a data key: it has the size of its fields and the checksum of its own
bytes, and it is signed over them with a signature of the announced size. -/
structure Created (k : Keyblock) (dataKey : PackedKey) (flags : KeyblockFlags)
    (signer : SigningKey) : Prop where
  canonical : k.Canonical
  ofKey : k.dataKey = dataKey
  keyVersion : dataKey.version ≤ maxKeyVersion
  flags : k.flags = flags
  signed : ∃ signed, k.signedBytes = .ok signed ∧ k.signature.MadeBy signer signed
  signatureSize : k.signature.blob.length = signer.signatureSize

theorem created_of_create (h : create dataKey flags signer = .ok k) :
    k.Created dataKey flags signer := by
  simp only [create, refuse_eq_ok, bind_eq_ok, pure_eq_ok, liftCodec_eq_ok, liftTrust_eq_ok,
    toLength_eq_ok, sizeSum_eq_ok, SigningKey.signSized_eq_ok] at h
  obtain ⟨inRange, _, ⟨-, rfl⟩, size, hsize, dataSize, hdata, checked, hc, blob, ⟨hblob, hlength⟩,
    rfl⟩ := h
  -- neither checksum nor signature is among the bytes that the checksum covers
  have signed {k : Keyblock} (hc : k.checkedBytes = .ok checked)
      (hsum : k.checksum = sha256 checked) :
      k.signedBytes = .ok (checked ++ (sha256 checked).bytes) :=
    signedBytes_eq_ok.2 ⟨checked, hc, by rw [hsum]⟩
  rw [← hlength] at hsize
  refine ⟨⟨rfl, hsize, checked, hc, rfl⟩, rfl, UInt32.not_lt.1 inRange, rfl,
    ⟨_, signed hc rfl, rfl, rfl, ?_, hblob⟩, hlength⟩
  rw [List.length_append, length_checkedBytes hc, (sha256 checked).length_eq]
  exact hdata

end Keyblock

/-- The keyblock of a source is canonical, whether it is made or read. -/
theorem ChainSource.canonical {source : ChainSource} {k : Keyblock} (h : source.keyblock = .ok k) :
    k.Canonical := by
  cases source with
  | fresh rootKey dataKey flags => exact (Keyblock.created_of_create h).canonical
  | reuse bytes =>
    have read : Keyblock.parse bytes = .ok k := mapError_ok_iff.1 h
    exact (Keyblock.parse_eq_ok_iff.1 read).1

end VerifiedBoot
