/-
Tamper evidence of read-write images. The signature record is not signed itself, and it is the record
that says how many bytes are. Where a key accepts no signature but that of one image, though, every
image of the same layout that is trusted under the key holds the same record and the same data: the
accepted signature fixes the signed bytes and with their number the record, and what follows the
signed bytes has to be padding.
-/
import VerifiedBoot.Proofs.Image.Coverage
import VerifiedBoot.Proofs.Verification.Tampering

namespace VerifiedBoot

/-- Strings of one length are equal if they start alike and nothing but padding follows in either. -/
theorem Bytes.eq_of_padded {x y : Bytes} {n : Nat} {pad : UInt8} (length : x.length = y.length)
    (start : x.take n = y.take n) (hx : (x.drop n).all (· == pad) = true)
    (hy : (y.drop n).all (· == pad) = true) : x = y := by
  have padded : ∀ {z : Bytes}, (z.drop n).all (· == pad) = true →
      z.drop n = List.replicate (z.length - n) pad := by
    intro z hz
    refine List.eq_replicate_iff.2 ⟨List.length_drop, fun b hb => ?_⟩
    exact eq_of_beq (List.all_eq_true.1 hz b hb)
  rw [← List.take_append_drop n x, ← List.take_append_drop n y, start, padded hx, padded hy, length]

namespace RwImage
variable {i : RwImage} {key : PackedKey} {primitives : TrustPrimitives} {n : Nat} {version : UInt32}

/-- A signature is read just where its encoding starts the signature area. -/
theorem signature_eq_ok {s : Signature} : i.signature = .ok s ↔ ∃ area record,
    i.layout.signature.slice i.bytes = some area ∧ s.encode = .ok record ∧ record <+: area := by
  simp only [signature, bind_eq_ok, liftCodec_eq_ok, part_eq_ok]
  constructor
  · rintro ⟨area, harea, parsed⟩
    obtain ⟨record, encoded, start⟩ := Signature.exact_read.parse_ok.1 parsed
    exact ⟨area, record, harea, encoded, start⟩
  · rintro ⟨area, record, harea, encoded, start⟩
    exact ⟨area, harea, Signature.exact_read.parse_ok.2 ⟨record, encoded, start⟩⟩

/-- What a given key makes trusted: a signature of the first bytes of the data, with padding after
them. -/
theorem signed_of_trusted (h : i.verify (some key) primitives = .trusted n version) :
    ∃ s data, i.signature = .ok s ∧ i.layout.data.slice i.bytes = some data ∧
      s.verifyData key (data.take n) primitives = .ok () ∧ (data.drop n).all (· == padding) = true ∧
      s.dataSize.toNat = n ∧ key.version = version := by
  obtain ⟨s, _, data, hs, given, -, hdata, -, valid, padded, size, hversion⟩ :=
    verify_eq_trusted_iff.1 h
  cases given
  exact ⟨s, data, signature_of_classicalSignature hs, hdata, valid, padded, size, hversion⟩

/-- If the key accepts only the signature of one trusted image, then every image of that layout which
is trusted under the key has the data of the first, byte for byte, begins its signature area with the
same record, and gets the same verdict. -/
theorem trusted_data_unique (trusted : i.verify (some key) primitives = .trusted n version) :
    ∃ (s : Signature) (record area data : Bytes), i.layout.signature.slice i.bytes = some area ∧
      s.encode = .ok record ∧ record <+: area ∧ i.layout.data.slice i.bytes = some data ∧
      primitives.verify key (data.take n) s.blob = .ok () ∧
      ((∀ signed blob, primitives.verify key signed blob = .ok () →
          signed = data.take n ∧ blob = s.blob) →
        ∀ i' : RwImage, i'.layout = i.layout →
          (i'.verify (some key) primitives).isTrusted = true →
          i'.layout.data.slice i'.bytes = some data ∧
          (∃ area', i'.layout.signature.slice i'.bytes = some area' ∧ record <+: area') ∧
          i'.verify (some key) primitives = .trusted n version) := by
  obtain ⟨s, data, hs, hdata, valid, padded, rfl, rfl⟩ := signed_of_trusted trusted
  obtain ⟨area, record, harea, encoded, start⟩ := signature_eq_ok.1 hs
  obtain ⟨-, -, -, accepted⟩ := Signature.verifyData_eq_ok.1 valid
  refine ⟨s, record, area, data, harea, encoded, start, hdata, accepted, ?_⟩
  intro only i' layout isTrusted
  cases verdict : i'.verify (some key) primitives with
  | untrusted failure =>
    rw [verdict] at isTrusted
    cases isTrusted
  | trusted n' version' =>
    obtain ⟨s', data', hs', hdata', valid', padded', rfl, rfl⟩ := signed_of_trusted verdict
    -- the accepted pair fixes the signed bytes, and they fix all fields of the record
    obtain ⟨-, -, -, accepted'⟩ := Signature.verifyData_eq_ok.1 valid'
    obtain ⟨signed, blob⟩ := only _ _ accepted'
    rw [signed] at valid'
    obtain rfl := Signature.eq_of_verifyData valid' valid blob
    obtain ⟨area', record', harea', encoded', start'⟩ := signature_eq_ok.1 hs'
    obtain rfl := Except.ok.inj (encoded.symm.trans encoded')
    have length : data'.length = data.length := by
      rw [Bytes.length_slice hdata', Bytes.length_slice hdata, layout]
    obtain rfl := Bytes.eq_of_padded length signed padded' padded
    exact ⟨hdata', ⟨area', harea', start'⟩, rfl⟩

/-- The image with the signature inside the data, as trusted by the key that accepts its signature and
no other: with other bytes behind the signature it is trusted too, with the same data and record. -/
theorem inlaid_data_unique : ∃ (s : Signature) (record area data : Bytes),
    s.encode = .ok record ∧ record <+: area ∧ data = [1, 2, 3, 4, 0xff, 0xff, 0xff, 0xff] ∧
    (inlaid 0xff).verify (some ⟨1, 9, [7]⟩) (.accepting [(⟨1, 9, [7]⟩, [1, 2, 3, 4], [10])])
      = .trusted 4 9 ∧
    (inlaid 0x90).layout.data.slice (inlaid 0x90).bytes = some data ∧
    (∃ area', (inlaid 0x90).layout.signature.slice (inlaid 0x90).bytes = some area' ∧
      record <+: area') ∧
    (inlaid 0x90).verify (some ⟨1, 9, [7]⟩) (.accepting [(⟨1, 9, [7]⟩, [1, 2, 3, 4], [10])])
      = .trusted 4 9 := by
  have trusted : (inlaid 0xff).verify (some ⟨1, 9, [7]⟩)
      (.accepting [(⟨1, 9, [7]⟩, [1, 2, 3, 4], [10])]) = .trusted 4 9 := by
    decide +kernel
  obtain ⟨s, record, area, data, -, encoded, start, hdata, accepted, unique⟩ :=
    trusted_data_unique trusted
  have bytes : (inlaid 0xff).layout.data.slice (inlaid 0xff).bytes
      = some [1, 2, 3, 4, 0xff, 0xff, 0xff, 0xff] := by
    decide +kernel
  obtain rfl := Option.some.inj (hdata.symm.trans bytes)
  rw [TrustPrimitives.verify_accepting, List.mem_singleton] at accepted
  have only : ∀ signed blob, (TrustPrimitives.accepting
      [(⟨1, 9, [7]⟩, [1, 2, 3, 4], [10])]).verify ⟨1, 9, [7]⟩ signed blob = .ok () →
        signed = [1, 2, 3, 4] ∧ blob = s.blob := by
    intro signed blob h
    rw [TrustPrimitives.verify_accepting, List.mem_singleton] at h
    simp only [Prod.mk.injEq] at h accepted
    exact ⟨h.2.1, h.2.2.trans accepted.2.2.symm⟩
  obtain ⟨hdata', record', verdict⟩ := unique only (inlaid 0x90) rfl (by decide +kernel)
  exact ⟨s, record, area, _, encoded, start, rfl, trusted, hdata', record', verdict⟩

end RwImage
end VerifiedBoot
