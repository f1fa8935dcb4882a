/-
The sizes of new records. A keyblock or a preamble contains its own size and is signed, so that the
size is fixed before the signature exists, by the size that the signing key announces. Since a key
that makes a signature of another size makes no record, the size that was signed is the one that
results, and the record is read back from its encoding wherever that stands.
-/
import VerifiedBoot.Proofs.Signing.Keyblocks

namespace VerifiedBoot

namespace Preamble
variable {p : Preamble}

/-- A canonical preamble is read back, whatever precedes and follows it. -/
theorem Canonical.read_back (h : p.Canonical) :
    ∃ bs, p.encode = .ok bs ∧ ∀ before rest : Bytes, before.length < allocationBound →
      parse (before ++ (bs ++ rest)) before.length = .ok p := by
  obtain ⟨bs, encoded⟩ := encode_ok h.size
  refine ⟨bs, encoded, fun before rest memory => parse_eq_ok_iff.2 ⟨?_, h, bs, encoded, ?_⟩⟩
  · unfold allocationBound at memory
    unfold minSize headerSize Signature.headerSize sizeBound
    omega
  · rw [List.drop_left]
    exact List.prefix_append bs rest

end Preamble

/-! ## Records of a signing key -/

/-- A new keyblock and a new preamble have an encoding of just the size that they declare and that was
signed with them, and are read back from it, whatever stands around it. Their signature is the one
that the key makes of their own signed bytes, and has the size that the key announces: a key that makes
signatures of other sizes makes no keyblock and no preamble. -/
theorem SigningKey.announced_sizes_result (signer : SigningKey) :
    (∀ dataKey flags k, Keyblock.create dataKey flags signer = .ok k →
      (∃ bs, k.encode = .ok bs ∧ bs.length = k.size.toNat ∧
        ∀ rest, Keyblock.parse (bs ++ rest) = .ok k) ∧
      (∃ signed, k.signedBytes = .ok signed ∧ k.signature.MadeBy signer signed) ∧
      k.signature.blob.length = signer.signatureSize) ∧
    (∀ version flags bodySignature subkey p,
      Preamble.create version flags bodySignature subkey signer = .ok p →
      (∃ bs, p.encode = .ok bs ∧ bs.length = p.size.toNat ∧
        ∀ before rest : Bytes, before.length < allocationBound →
          Preamble.parse (before ++ (bs ++ rest)) before.length = .ok p) ∧
      (∃ signed, p.signedBytes = .ok signed ∧ p.signature.MadeBy signer signed) ∧
      p.signature.blob.length = signer.signatureSize) ∧
    ((∀ data blob, signer.sign data = .ok blob → blob.length ≠ signer.signatureSize) →
      (∀ dataKey flags k, Keyblock.create dataKey flags signer ≠ .ok k) ∧
      ∀ version flags bodySignature subkey p,
        Preamble.create version flags bodySignature subkey signer ≠ .ok p) := by
  refine ⟨?_, ?_, ?_⟩
  · intro dataKey flags k created
    obtain ⟨canonical, -, -, -, signed, announced⟩ := Keyblock.created_of_create created
    obtain ⟨bs, encoded, back⟩ := canonical.read_back
    exact ⟨⟨bs, encoded, (Keyblock.length_encode encoded).trans canonical.size.symm, back⟩, signed,
      announced⟩
  · intro version flags bodySignature subkey p created
    obtain ⟨canonical, announced⟩ := Preamble.canonical_of_create created
    obtain ⟨bs, encoded, back⟩ := canonical.read_back
    exact ⟨⟨bs, encoded, (Preamble.length_encode encoded).trans canonical.size.symm, back⟩,
      (Preamble.create_ok created).2, announced⟩
  · intro other
    constructor
    · intro dataKey flags k created
      obtain ⟨-, -, -, -, ⟨_, -, made⟩, announced⟩ := Keyblock.created_of_create created
      exact other _ _ made.signed announced
    · intro version flags bodySignature subkey p created
      obtain ⟨-, _, -, made⟩ := Preamble.create_ok created
      exact other _ _ made.signed (Preamble.canonical_of_create created).2

/-- The key of the sample signer, announcing signatures of two bytes and making signatures of one. -/
def Signer.misannouncingKey : SigningKey := { Signer.sampleSigner.dataKey with signatureSize := 2 }

/-- The key of the sample signer makes a keyblock and a preamble of the sizes that it announces, which
are read back; announcing another size, it makes neither. -/
theorem Signer.sample_sizes_result :
    (∃ k bs, Keyblock.create ⟨1, 5, [7]⟩ .all sampleSigner.dataKey = .ok k ∧ k.size = 79 ∧
      k.encode = .ok bs ∧ bs.length = 79 ∧ ∀ rest, Keyblock.parse (bs ++ rest) = .ok k) ∧
    (∃ p bs, Preamble.create 7 3 ⟨.classical, 1, 4, [2]⟩ (some ⟨1, 5, [7]⟩) sampleSigner.dataKey
        = .ok p ∧ p.size = 58 ∧ p.encode = .ok bs ∧ bs.length = 58 ∧
      ∀ rest, Preamble.parse ([1, 2, 3] ++ (bs ++ rest)) 3 = .ok p) ∧
    (∀ dataKey flags k, Keyblock.create dataKey flags misannouncingKey ≠ .ok k) ∧
    ∀ version flags bodySignature subkey p,
      Preamble.create version flags bodySignature subkey misannouncingKey ≠ .ok p := by
  obtain ⟨keyblocks, preambles, -⟩ := SigningKey.announced_sizes_result sampleSigner.dataKey
  obtain ⟨-, -, none⟩ := SigningKey.announced_sizes_result misannouncingKey
  refine ⟨?_, ?_, none ?_⟩
  · have created : (Keyblock.create ⟨1, 5, [7]⟩ .all sampleSigner.dataKey).toOption.map (·.size)
        = some 79 := by
      decide +kernel
    obtain ⟨k, hk, size⟩ := Option.map_eq_some_iff.1 created
    obtain ⟨⟨bs, encoded, length, back⟩, -⟩ := keyblocks _ _ _ (toOption_eq_some.1 hk)
    rw [size] at length
    exact ⟨k, bs, toOption_eq_some.1 hk, size, encoded, length, back⟩
  · have created : (Preamble.create 7 3 ⟨.classical, 1, 4, [2]⟩ (some ⟨1, 5, [7]⟩)
        sampleSigner.dataKey).toOption.map (·.size) = some 58 := by
      decide +kernel
    obtain ⟨p, hp, size⟩ := Option.map_eq_some_iff.1 created
    obtain ⟨⟨bs, encoded, length, back⟩, -⟩ := preambles _ _ _ _ _ (toOption_eq_some.1 hp)
    rw [size] at length
    refine ⟨p, bs, toOption_eq_some.1 hp, size, encoded, length, fun rest => ?_⟩
    exact back [1, 2, 3] rest (by decide)
  · intro data blob h
    cases h
    exact (by decide : 1 ≠ 2)

end VerifiedBoot
