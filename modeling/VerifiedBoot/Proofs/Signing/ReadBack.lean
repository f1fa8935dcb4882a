/-
A chain that was built is read back as it was made. Wherever its bytes stand, the keyblock of the
signer and one preamble are found there, and the preamble has the version, the flags and the subkey
that were asked for, the length of the signed range, and a signature that the data key made of it.
-/
import VerifiedBoot.Proofs.Signing.Plan

namespace VerifiedBoot

theorem Preamble.bodySignature_of_create {version : UInt16} {flags : UInt32} {signature : Signature}
    {subkey : Option PackedKey} {signer : SigningKey} {p : Preamble}
    (h : create version flags signature subkey signer = .ok p) : signature = p.bodySignature := by
  obtain ⟨⟨_, _, rfl⟩, -⟩ := create_ok h
  rfl

namespace Signer

/-- The encoded chain of the signer's keyblock and of a preamble that stands for a range of a body. -/
structure SignedChain (s : Signer) (signed : Bytes) (version : UInt16) (flags : UInt32)
    (preamble : Preamble) (bs : Bytes) : Prop where
  length : preamble.bodyLength = signed.length
  vouches : s.Vouches signed preamble.bodySignature
  created : Preamble.create version flags preamble.bodySignature s.options.subkey s.dataKey
    = .ok preamble
  encoded : ∃ capacity, TrustChain.encode { keyblock := s.keyblock, preamble } capacity = .ok bs

variable {s : Signer} {signed bs : Bytes} {version : UInt16} {flags : UInt32} {preamble : Preamble}

/-- A chain for a range of a body holds the body signature that its metadata hash asks for. -/
theorem signedChain_of_chainFor {hash : Option MetadataHash} {capacity : Nat}
    (h : s.chainFor signed hash version flags capacity = .ok bs)
    (valid : ∀ found, hash = some found →
      s.payload.metadataHash signed s.primitives = some found ∧
        s.payload.contentMatches signed s.primitives = true) :
    ∃ preamble, s.SignedChain signed version flags preamble bs ∧
      s.SignedAs hash.isSome signed preamble.bodySignature := by
  obtain ⟨signature, hs, preamble, hcreate, hencode⟩ := chainFor_eq_ok.1 h
  have signedAs := signedAs_of_bodySignature hs valid
  obtain rfl := Preamble.bodySignature_of_create hcreate
  exact ⟨preamble, ⟨signedAs.dataSize, signedAs.vouches, hcreate, capacity, hencode⟩, signedAs⟩

/-- The chain of a built slot stands for the start of the body in the image. -/
theorem Built.signedChain {image : Bytes} {slot : Slot} {built : Slot × Bytes}
    (h : s.Built image slot built) :
    ∃ body preamble, slot.body.slice image = some body ∧ built.1.bodyLength ≤ body.length ∧
      s.SignedChain (body.take built.1.bodyLength) built.1.version built.1.flags preamble built.2 := by
  obtain ⟨body, signature, preamble, hbody, fits, size, vouches, hcreate, hencode⟩ := h.signed
  obtain rfl := Preamble.bodySignature_of_create hcreate
  refine ⟨body, preamble, hbody, fits, ?_, vouches, hcreate, _, hencode⟩
  rw [List.length_take_of_le fits]
  exact size

namespace SignedChain

/-- The preamble says what was asked for. -/
theorem fields (h : s.SignedChain signed version flags preamble bs) :
    preamble.version = version ∧ preamble.flags = flags ∧ preamble.subkey = s.options.subkey := by
  obtain ⟨⟨_, _, hp⟩, -⟩ := Preamble.create_ok h.created
  rw [hp]
  exact ⟨rfl, rfl, rfl⟩

/-- A chain of the signer's keyblock is read from every area that begins with it. -/
theorem parse {source : ChainSource} {area : Bytes}
    (h : s.SignedChain signed version flags preamble bs) (made : source.keyblock = .ok s.keyblock)
    (start : bs <+: area) :
    TrustChain.parse area = .ok { keyblock := s.keyblock, preamble } := by
  obtain ⟨capacity, hencode⟩ := h.encoded
  -- both records could be encoded, so that their sizes are those of their fields
  obtain ⟨k, hk, p, hp, -, -⟩ := TrustChain.encode_eq_ok.1 hencode
  obtain ⟨⟨_, _, hfields⟩, -⟩ := Preamble.create_ok h.created
  have canonical : TrustChain.Canonical { keyblock := s.keyblock, preamble } :=
    ⟨source.canonical made, by rw [hfields], (Preamble.encode_eq_ok.1 hp).1⟩
  exact TrustChain.parse_eq_ok_iff.2 ⟨canonical, bs,
    (TrustChain.encode_eq_ok_iff_of_ok hencode).2 ⟨rfl, start.length_le⟩, start⟩

/-- The preamble passes the check of its signature, where the primitives accept what the data key
signs. -/
theorem verifySignature {primitives : TrustPrimitives}
    (h : s.SignedChain signed version flags preamble bs)
    (algorithm : s.keyblock.dataKey.algorithm = s.dataKey.algorithm.raw)
    (accepts : ∀ data blob, s.dataKey.sign data = .ok blob →
      primitives.verify s.keyblock.dataKey data blob = .ok ()) :
    preamble.verifySignature s.keyblock.dataKey primitives = .ok () := by
  obtain ⟨-, covered, hcovered, madeBy⟩ := Preamble.create_ok h.created
  exact Preamble.verifySignature_of_madeBy hcovered madeBy algorithm accepts

end SignedChain
end Signer
end VerifiedBoot
