/-
What a trusted read-write image vouches for. The data are cut off where the signature starts inside
them, and the verifier looks at the data that are left: each of their bytes is signed or is padding.
If the signature ends before the data would have ended, what lies behind it is cut off as well, and
the verdict is the same whatever stands there.
-/
import VerifiedBoot.Proofs.Bounds.Input

namespace VerifiedBoot

/-! ## Data that are cut off -/

namespace RwLayout
variable {signature data data' : Area} {image : Bytes} {signatureSize : Nat} {l : RwLayout}

end RwLayout

/-! ## Verdicts -/

namespace RwImage
variable {i : RwImage} {bytes : Bytes} {given : Option PackedKey} {primitives : TrustPrimitives}
  {n : Nat} {version : UInt32}

/-- What makes an image trusted: a signature of the first bytes of its data, by a key that can be used,
and nothing but padding after them. -/
theorem verify_eq_trusted_iff : i.verify given primitives = .trusted n version ↔
    ∃ s packed data, i.classicalSignature = .ok s ∧ i.verificationKey given = .ok packed ∧
      primitives.checkKey packed = .ok () ∧ i.layout.data.slice i.bytes = some data ∧
      n ≤ data.length ∧ s.verifyData packed (data.take n) primitives = .ok () ∧
      (data.drop n).all (· == padding) = true ∧ s.dataSize.toNat = n ∧ packed.version = version := by
  have examined : i.verify given primitives = .trusted n version ↔
      i.examine given primitives = .ok (n, version) := by
    unfold verify
    cases i.examine given primitives with
    | ok facts => simp [Prod.ext_iff]
    | error failure => simp
  rw [examined]
  simp only [examine, bind_eq_ok, refuse_eq_ok, mapError_ok_iff, part_eq_ok, not_lt]
  constructor
  · rintro ⟨s, hs, packed, hkey, ⟨⟩, usable, data, hdata, fits, ⟨⟩, valid, padded⟩
    split_ifs at padded with clean
    cases padded
    exact ⟨s, packed, data, hs, hkey, usable, hdata, fits, valid, clean, rfl, rfl⟩
  · rintro ⟨s, packed, data, hs, hkey, usable, hdata, fits, valid, clean, rfl, rfl⟩
    exact ⟨s, hs, packed, hkey, (), usable, data, hdata, fits, (), valid, if_pos clean⟩

theorem signature_of_classicalSignature {s : Signature} (h : i.classicalSignature = .ok s) :
    i.signature = .ok s := by
  unfold classicalSignature at h
  cases hs : i.signature with
  | error e => simp only [hs] at h; cases h
  | ok s' =>
    simp only [hs] at h
    split_ifs at h
    cases h
    rfl

/-- The bytes of a signed image whose signature lies inside the data, up to its end. -/
def inlaidStart : Bytes :=
  let map := FlashMap.build "FMAP" 0 180 [.named "EC_RW" 140 40, .named "SIG_RW" 148 20]
  let signature : Signature := ⟨.classical, 1, 4, [10]⟩
  map.encode.toOption.getD [] ++ [1, 2, 3, 4, 0xff, 0xff, 0xff, 0xff]
    ++ (signature.encode.toOption.getD []).padTo 20 padding

/-- The bytes of the image with the rest of the data behind the signature. -/
def inlaidBytes (behind : UInt8) : Bytes := inlaidStart ++ List.replicate 12 behind

def inlaid (behind : UInt8) : RwImage where
  bytes := inlaidBytes behind
  layout := { key := none, signature := ⟨148, 20⟩, data := ⟨140, 8⟩ }

end RwImage
end VerifiedBoot
