/-
What a trusted verdict says: a slot is trusted if and only if its area holds a chain for which every
check passes, and then the facts established are those of the chain. Checks of signatures come down
to the trust primitives, on the bytes that the signatures cover.
-/
import VerifiedBoot.Verifier
import VerifiedBoot.Proofs.Codec.Chain

namespace VerifiedBoot

/-! ## Checks of signatures -/

theorem Signature.verifyData_eq_ok {s : Signature} {key : PackedKey} {data : Bytes}
    {primitives : TrustPrimitives} :
    s.verifyData key data primitives = .ok () ↔
      s.kind = .classical ∧ s.dataSize.toNat = data.length ∧ s.algorithm = key.algorithm ∧
        primitives.verify key data s.blob = .ok () := by
  unfold verifyData
  split_ifs with h₁ h₂
  · constructor
    · intro h; cases h
    · rintro ⟨hk, hd, -⟩
      exact absurd h₁ (by simp [hk, hd])
  · constructor
    · intro h; cases h
    · rintro ⟨-, -, ha, -⟩
      exact absurd ha h₂
  · rw [not_or, ne_eq, ne_eq, not_not, not_not] at h₁
    rw [ne_eq, not_not] at h₂
    exact ⟨fun h => ⟨h₁.1, h₁.2, h₂, h⟩, fun h => h.2.2.2⟩

theorem Keyblock.verifySignature_eq_ok {k : Keyblock} {key : PackedKey}
    {primitives : TrustPrimitives} :
    k.verifySignature key primitives = .ok () ↔
      ∃ signed, k.signedBytes = .ok signed ∧ k.signature.verifyData key signed primitives = .ok () := by
  unfold verifySignature
  cases k.signedBytes <;> simp

theorem Preamble.verifySignature_eq_ok {p : Preamble} {key : PackedKey}
    {primitives : TrustPrimitives} :
    p.verifySignature key primitives = .ok () ↔
      ∃ signed, p.signedBytes = .ok signed ∧ p.signature.verifyData key signed primitives = .ok () := by
  unfold verifySignature
  cases p.signedBytes <;> simp

/-! ## Checks of a slot -/

/-- What a chain says of a slot that is trusted. -/
def TrustChain.facts (c : TrustChain) : TrustedSlot where
  version := c.preamble.version
  flags := c.preamble.flags
  keyVersion := c.keyblock.dataKey.version
  bodyLength := c.preamble.bodyLength
  keyblockFlags := c.keyblock.flags
  dataKey := c.keyblock.dataKey
  subkey := c.preamble.subkey

namespace Verifier

/-- Every check of a slot passes, where `c` is the chain in its area and `key` must have signed the
keyblock. -/
structure Passes (v : Verifier) (key : PackedKey) (c : TrustChain) (body : Bytes) : Prop where
  keyblockSigned : c.keyblock.verifySignature key v.primitives = .ok ()
  modeAllowed : v.modeAllowed c.keyblock = true
  keyUsable : v.primitives.checkKey c.keyblock.dataKey = .ok ()
  keyVersion : c.keyblock.dataKey.version ≤ maxKeyVersion
  preambleSigned : c.preamble.verifySignature c.keyblock.dataKey v.primitives = .ok ()
  versionReached : ∀ minimum, v.options.minVersion = some minimum →
    ∃ version, c.preamble.combinedVersion c.keyblock.dataKey = some version ∧ minimum ≤ version
  bodyFits : c.preamble.bodyLength ≤ body.length
  bodyValid : v.bodyValid (body.take c.preamble.bodyLength) c.preamble.bodySignature
    c.keyblock.dataKey = true

theorem demand_eq_ok {p : Bool} {reason : UntrustedReason} {stage : Stage} {u : Unit} :
    demand p reason stage = .ok u ↔ p = true := by
  cases p <;> simp [demand]

theorem demandVersion_eq_ok {v : Verifier} {version : Option UInt32} {u : Unit} :
    v.demandVersion version = .ok u ↔
      ∀ minimum, v.options.minVersion = some minimum → ∃ n, version = some n ∧ minimum ≤ n := by
  unfold demandVersion
  cases v.options.minVersion with
  | none => simp
  | some minimum => cases version <;> simp [demand_eq_ok]

theorem examine_eq_ok_iff {v : Verifier} {key : PackedKey} {chain body : Bytes} {slot : TrustedSlot} :
    v.examine key chain body = .ok slot ↔
      ∃ c, TrustChain.parse chain = .ok c ∧ v.Passes key c body ∧ c.facts = slot := by
  simp only [examine, bind_eq_ok, mapError_ok_iff, demand_eq_ok, demandVersion_eq_ok, pure_eq_ok,
    isOk_iff, decide_eq_true_eq, TrustChain.parse_eq_ok]
  constructor
  · rintro ⟨k, hk, _, h₁, _, h₂, _, h₃, _, h₄, p, hp, _, h₅, _, h₆, _, h₇, _, h₈, rfl⟩
    exact ⟨⟨k, p⟩, ⟨hk, hp⟩, ⟨h₁, h₂, h₃, h₄, h₅, h₆, h₇, h₈⟩, rfl⟩
  · rintro ⟨⟨k, p⟩, ⟨hk, hp⟩, ⟨h₁, h₂, h₃, h₄, h₅, h₆, h₇, h₈⟩, rfl⟩
    exact ⟨k, hk, (), h₁, (), h₂, (), h₃, (), h₄, p, hp, (), h₅, (), h₆, (), h₇, (), h₈, rfl⟩

/-- A slot is trusted just if its area holds a chain for which every check passes. -/
theorem judge_eq_trusted_iff {v : Verifier} {key : PackedKey} {chain body : Bytes}
    {slot : TrustedSlot} :
    v.judge key chain body = .trusted slot ↔
      ∃ c, TrustChain.parse chain = .ok c ∧ v.Passes key c body ∧ c.facts = slot := by
  rw [← examine_eq_ok_iff]
  unfold judge
  cases v.examine key chain body <;> simp

/-! ## The check of the body -/

theorem metadataValid_iff {v : Verifier} {body : Bytes} {s : Signature} :
    v.metadataValid body s = true ↔
      ∃ hash, v.payload.metadataHash body v.primitives = some hash ∧
        hash.algorithm.raw = s.algorithm ∧ hash.digest = s.blob ∧
        v.payload.contentMatches body v.primitives = true := by
  unfold metadataValid
  cases v.payload.metadataHash body v.primitives <;> simp [and_assoc]

theorem bodyValid_classical {v : Verifier} {body : Bytes} {s : Signature} {dataKey : PackedKey}
    (h : s.kind = .classical) :
    v.bodyValid body s dataKey = true ↔ s.verifyData dataKey body v.primitives = .ok () := by
  simp only [bodyValid, h, isOk_iff]

theorem bodyValid_digest {v : Verifier} {body : Bytes} {s : Signature} {dataKey : PackedKey}
    (h : s.kind = .digest) :
    v.bodyValid body s dataKey = true ↔ v.metadataValid body s = true := by
  simp only [bodyValid, h]

end Verifier
end VerifiedBoot
