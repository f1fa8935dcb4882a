/-
The keyblock that a signer holds. A new keyblock has the size of its fields, and a reused keyblock has
been read. Either is canonical, so that it is read back wherever it is written. The version of the data
key is looked at for a new keyblock only: a reused one is held with any version, and then no verifier
that accepts its signature gets past the check of its data key.
-/
import VerifiedBoot.Proofs.Signing.Software
import VerifiedBoot.Proofs.Verification.Stages

namespace VerifiedBoot

/-! ## Keyblocks that are held -/

/-- A canonical keyblock is read back, whatever follows it. -/
theorem Keyblock.Canonical.read_back {k : Keyblock} (h : k.Canonical) :
    ∃ bs, k.encode = .ok bs ∧ ∀ rest, parse (bs ++ rest) = .ok k := by
  obtain ⟨bs, hbs⟩ := encode_ok h.size
  exact ⟨bs, hbs, fun rest => parse_eq_ok_iff.2 ⟨h, bs, hbs, List.prefix_append bs rest⟩⟩

/-- The keyblock of a source has a data key of a version in range, or it has been read. -/
theorem ChainSource.keyVersion_le_or_reused {source : ChainSource} {k : Keyblock}
    (h : source.keyblock = .ok k) :
    k.dataKey.version ≤ maxKeyVersion ∨ ∃ bytes, source = .reuse bytes ∧ Keyblock.parse bytes = .ok k := by
  cases source with
  | fresh rootKey dataKey flags =>
    have created := Keyblock.created_of_create h
    rw [created.ofKey]
    exact .inl created.keyVersion
  | reuse bytes => exact .inr ⟨bytes, rfl, mapError_ok_iff.1 h⟩

/-! ## Keyblocks that are refused for their data key -/

theorem Verdict.reason?_eq_some {verdict : Verdict} {reason : UntrustedReason} :
    verdict.reason? = some reason ↔ ∃ stage, verdict = .untrusted reason stage := by
  cases verdict <;> simp [reason?]

namespace Verifier
open SlotCheck

/-- A verifier refuses the data key of a keyblock just if it accepts the signature and the boot mode
of the keyblock, and the key is not usable or its version is out of range. -/
theorem judge_dataKeyMalformed_iff {v : Verifier} {root : PackedKey} {area body : Bytes}
    {k : Keyblock} (hk : Keyblock.parse area = .ok k) :
    (v.judge root area body).reason? = some .dataKeyMalformed ↔
      k.verifySignature root v.primitives = .ok () ∧
      (∀ mode, v.options.bootMode = some mode → k.allows mode = true) ∧
      ¬ (v.primitives.checkKey k.dataKey = .ok () ∧ k.dataKey.version ≤ maxKeyVersion) := by
  simp only [Verdict.reason?_eq_some, judge_eq_untrusted_iff]
  constructor
  · rintro ⟨stage, c, ⟨fails, earlier⟩, fault⟩
    have signed (before : position .keyblockSigned < c.position) :
        k.verifySignature root v.primitives = .ok () :=
      (forall_ok_iff hk).1 (earlier .keyblockSigned before)
    have allowed (before : position .modeAllowed < c.position) :
        ∀ mode, v.options.bootMode = some mode → k.allows mode = true :=
      (forall_ok_iff hk).1 (earlier .modeAllowed before)
    cases c with
    | keyUsable =>
      have unusable := mt (forall_ok_iff hk).2 fails
      exact ⟨signed (by decide), allowed (by decide), fun h => unusable h.1⟩
    | keyVersionInRange =>
      have outOfRange := mt (forall_ok_iff hk).2 fails
      exact ⟨signed (by decide), allowed (by decide), fun h => outOfRange h.2⟩
    | _ => cases fault
  · rintro ⟨signed, allowed, refused⟩
    have parsed : PassedBefore v root area body (position .keyblockSigned) :=
      passedBefore_keyblockSigned hk
    have passed := (parsed.next .keyblockSigned ((forall_ok_iff hk).2 signed)).next .modeAllowed
      ((forall_ok_iff hk).2 allowed)
    by_cases usable : v.primitives.checkKey k.dataKey = .ok ()
    · have outOfRange : ¬ k.dataKey.version ≤ maxKeyVersion := fun h => refused ⟨usable, h⟩
      exact ⟨_, .keyVersionInRange, ⟨mt (forall_ok_iff hk).1 outOfRange,
        passed.next .keyUsable ((forall_ok_iff hk).2 usable)⟩, rfl⟩
    · exact ⟨_, .keyUsable, ⟨mt (forall_ok_iff hk).1 usable, passed⟩, rfl⟩

end Verifier

/-! ## Signers -/

namespace Signer

/-- The data key of a signer is the one in its keyblock. -/
theorem held_key_of_make {source : ChainSource} {dataKey : SigningKey} {options : SignOptions}
    {primitives : TrustPrimitives} {payload : PayloadFormat} {s : Signer}
    (made : make source dataKey options primitives payload = .ok s) :
    s.keyblock.dataKey.algorithm = dataKey.algorithm.raw ∧
      s.keyblock.dataKey.material = dataKey.publicMaterial := by
  simp only [make, bind_eq_ok, refuse_eq_ok, pure_eq_ok, not_or, ne_eq, not_not] at made
  obtain ⟨keyblock, -, key, rfl⟩ := made
  exact key

/-- The keyblock that a signer holds is read back wherever it is written, and its data key is the
one of the signer. The version of that key is in range unless the keyblock was reused. A verifier
refuses the data key of a chain with this keyblock just if it accepts the keyblock itself, and the
key is not usable to it or the version is out of range. -/
theorem held_keyblock_usable_but_for_reused_version {source : ChainSource} {dataKey : SigningKey}
    {options : SignOptions} {primitives : TrustPrimitives} {payload : PayloadFormat} {s : Signer}
    (made : make source dataKey options primitives payload = .ok s) :
    ∃ bs, s.keyblock.encode = .ok bs ∧ (∀ rest, Keyblock.parse (bs ++ rest) = .ok s.keyblock) ∧
      s.keyblock.dataKey.algorithm = dataKey.algorithm.raw ∧
      s.keyblock.dataKey.material = dataKey.publicMaterial ∧
      (s.keyblock.dataKey.version ≤ maxKeyVersion ∨
        ∃ bytes, source = .reuse bytes ∧ Keyblock.parse bytes = .ok s.keyblock) ∧
      ∀ (v : Verifier) (root : PackedKey) (area body : Bytes), bs <+: area →
        ((v.judge root area body).reason? = some .dataKeyMalformed ↔
          s.keyblock.verifySignature root v.primitives = .ok () ∧
          (∀ mode, v.options.bootMode = some mode → s.keyblock.allows mode = true) ∧
          ¬ (v.primitives.checkKey s.keyblock.dataKey = .ok () ∧
            s.keyblock.dataKey.version ≤ maxKeyVersion)) := by
  have held : source.keyblock = .ok s.keyblock := (make_ok made).1
  obtain ⟨bs, encoded, back⟩ := (ChainSource.canonical held).read_back
  obtain ⟨algorithm, material⟩ := held_key_of_make made
  refine ⟨bs, encoded, back, algorithm, material, ChainSource.keyVersion_le_or_reused held, ?_⟩
  rintro v root area body ⟨rest, rfl⟩
  exact Verifier.judge_dataKeyMalformed_iff (back rest)

/-- The keyblock of the software signer is new, and no software verifier with the root key refuses
its data key; the keyblock of the sample signer is reused, and has a version in range as well. -/
theorem new_and_reused_keyblocks_usable :
    (∃ bs, softwareSigner.keyblock.encode = .ok bs ∧
      (∀ rest, Keyblock.parse (bs ++ rest) = .ok softwareSigner.keyblock) ∧
      softwareSigner.keyblock.dataKey.version ≤ maxKeyVersion ∧
      ∀ rest body, (Verifier.judge ⟨.none, .software, .raw⟩ softwareRootKey (bs ++ rest) body).reason?
        ≠ some .dataKeyMalformed) ∧
    ∃ bs, sampleSigner.keyblock.encode = .ok bs ∧
      (∀ rest, Keyblock.parse (bs ++ rest) = .ok sampleSigner.keyblock) ∧
      sampleSigner.keyblock.dataKey.version ≤ maxKeyVersion := by
  obtain ⟨bs, encoded, back, -, -, version, refused⟩ :=
    held_keyblock_usable_but_for_reused_version make_softwareSigner
  obtain ⟨bs', encoded', back', -⟩ := held_keyblock_usable_but_for_reused_version make_sampleSigner
  have inRange : softwareSigner.keyblock.dataKey.version ≤ maxKeyVersion := by
    rcases version with inRange | ⟨bytes, reused, -⟩
    · exact inRange
    · cases reused
  refine ⟨⟨bs, encoded, back, inRange, ?_⟩, bs', encoded', back', by decide⟩
  intro rest body
  rw [ne_eq, refused ⟨.none, .software, .raw⟩ softwareRootKey _ body (List.prefix_append bs rest)]
  rintro ⟨-, -, unusable⟩
  exact unusable ⟨rfl, inRange⟩

/-- The keyblock of the sample chain with a key version of 17 bits. -/
def wideKeyblock : Keyblock where
  headerVersion := 1
  size := 79
  flags := .all
  dataKey := ⟨1, 0x10000, [7]⟩
  checksum := sha256 (Keyblock.headerBytes 79 .all ++ [1, 0, 0, 0, 0, 0, 1, 0, 1, 0, 0, 0, 7])
  signature := ⟨.classical, 1, 65, [1]⟩

/-- The encoding of the keyblock with the wide key version. -/
def wideKeyblockBytes : Bytes := wideKeyblock.encode.toOption.getD []

theorem parse_wideKeyblockBytes_append (rest : Bytes) :
    Keyblock.parse (wideKeyblockBytes ++ rest) = .ok wideKeyblock := by
  have canonical : wideKeyblock.Canonical := ⟨rfl, rfl, _, rfl, rfl⟩
  obtain ⟨bs, encoded, back⟩ := canonical.read_back
  have same : wideKeyblockBytes = bs := by
    rw [wideKeyblockBytes, encoded]
    rfl
  rw [same]
  exact back rest

/-- A keyblock with a key version of 17 bits is refused when it is to be made and held when it is
reused, and a verifier that accepts its signature refuses every chain that begins with it. -/
theorem wide_key_reused_and_refused :
    make (.reuse wideKeyblockBytes) sampleSigner.dataKey .none sampleSigner.primitives .raw
      = .ok { sampleSigner with keyblock := wideKeyblock, options := .none } ∧
    ¬ wideKeyblock.dataKey.version ≤ maxKeyVersion ∧
    (∀ rootKey flags, (make (.fresh rootKey wideKeyblock.dataKey flags) sampleSigner.dataKey .none
      sampleSigner.primitives .raw).isOk = false) ∧
    ∀ rest body, (Verifier.judge ⟨.none, sampleSigner.primitives, .raw⟩ TrustChain.sampleRoot
      (wideKeyblockBytes ++ rest) body).reason? = some .dataKeyMalformed := by
  have wide : ¬ wideKeyblock.dataKey.version ≤ maxKeyVersion := by decide
  have signed : wideKeyblock.verifySignature TrustChain.sampleRoot sampleSigner.primitives = .ok () := by
    decide +kernel
  have parsed := parse_wideKeyblockBytes_append []
  rw [List.append_nil] at parsed
  refine ⟨?_, wide, fun _ _ => rfl, ?_⟩
  · simp only [make, ChainSource.keyblock, parsed, Except.mapError]
    rfl
  · intro rest body
    refine (Verifier.judge_dataKeyMalformed_iff (parse_wideKeyblockBytes_append rest)).2
      ⟨signed, ?_, fun h => wide h.2⟩
    rintro mode ⟨⟩

end Signer
end VerifiedBoot
