/-
Whatever is signed verifies. Every slot that a signing reports holds, in the signed image, a chain
and a body that are trusted under the root key of the signer's keyblock, with the facts that the
report gives. Slots are signed one after another, and no write reaches what another slot needs.
-/
import VerifiedBoot.Proofs.Signing.ReadBack
import VerifiedBoot.Proofs.Signing.Writing

namespace VerifiedBoot

namespace Signer
variable {s : Signer} {image : Bytes} {slot : Slot} {built : Slot × Bytes} {root : PackedKey}

/-- The primitives accept the data key of the keyblock, what the data key signs, and under `root`
the keyblock itself. -/
structure TrustedUnder (s : Signer) (root : PackedKey) : Prop where
  keyUsable : s.primitives.checkKey s.keyblock.dataKey = .ok ()
  keyVersion : s.keyblock.dataKey.version ≤ maxKeyVersion
  accepts : ∀ data blob, s.dataKey.sign data = .ok blob →
    s.primitives.verify s.keyblock.dataKey data blob = .ok ()
  keyblockSigned : s.keyblock.verifySignature root s.primitives = .ok ()

theorem make_ok {source : ChainSource} {dataKey : SigningKey} {options : SignOptions}
    {primitives : TrustPrimitives} {payload : PayloadFormat}
    (h : make source dataKey options primitives payload = .ok s) :
    source.keyblock = .ok s.keyblock ∧
      s.keyblock.dataKey.algorithm = s.dataKey.algorithm.raw ∧
      s.options = options ∧ s.primitives = primitives ∧ s.payload = payload := by
  simp only [make, bind_eq_ok, refuse_eq_ok, pure_eq_ok, not_or, ne_eq, not_not] at h
  obtain ⟨keyblock, hk, ⟨algorithm, -⟩, rfl⟩ := h
  exact ⟨hk, algorithm, rfl, rfl, rfl⟩

/-! ## One slot -/

/-- What is to be found of a slot that a report has an entry for. -/
def factsOf (s : Signer) (entry : SignedSlot) : TrustedSlot where
  version := entry.version
  flags := entry.flags
  keyVersion := s.keyblock.dataKey.version
  bodyLength := entry.bodyLength
  keyblockFlags := s.keyblock.flags
  dataKey := s.keyblock.dataKey
  subkey := s.options.subkey

theorem Vouches.bodyValid {v : Verifier} {signed : Bytes} {signature : Signature}
    (h : s.Vouches signed signature) (under : s.TrustedUnder root)
    (algorithm : s.keyblock.dataKey.algorithm = s.dataKey.algorithm.raw)
    (hp : v.primitives = s.primitives) (hf : v.payload = s.payload) :
    v.bodyValid signed signature s.keyblock.dataKey = true := by
  cases h with
  | classical made =>
    rw [Verifier.bodyValid_classical made.kind, hp]
    exact made.verifyData algorithm under.accepts
  | digest hash kind halgorithm blob found valid =>
    rw [Verifier.bodyValid_digest kind, Verifier.metadataValid_iff, hp, hf]
    exact ⟨hash, found, halgorithm.symm, blob.symm, valid⟩

/-- A chain for the start of a body makes it a trusted slot, in every area that begins with the chain
and for every verifier with the primitives and the payload format of the signer. -/
theorem SignedChain.trusted {source : ChainSource} {v : Verifier} {signed bs area body : Bytes}
    {version : UInt16} {flags : UInt32} {preamble : Preamble}
    (h : s.SignedChain signed version flags preamble bs) (under : s.TrustedUnder root)
    (made : source.keyblock = .ok s.keyblock)
    (algorithm : s.keyblock.dataKey.algorithm = s.dataKey.algorithm.raw)
    (hp : v.primitives = s.primitives) (hf : v.payload = s.payload)
    (noMinimum : v.options.minVersion = none)
    (allowed : v.options.bootMode.all s.keyblock.allows = true)
    (hbody : signed <+: body) (start : bs <+: area) :
    v.judge root area body = .trusted {
      version
      flags
      keyVersion := s.keyblock.dataKey.version
      bodyLength := signed.length
      keyblockFlags := s.keyblock.flags
      dataKey := s.keyblock.dataKey
      subkey := s.options.subkey } := by
  obtain ⟨hversion, hflags, hsubkey⟩ := h.fields
  have range : body.take preamble.bodyLength = signed := take_eq_of_isPrefix hbody h.length.symm
  refine Verifier.judge_eq_trusted_iff.2 ⟨_, h.parse made start, ?_, ?_⟩
  · refine ⟨hp ▸ under.keyblockSigned, allowed, hp ▸ under.keyUsable, under.keyVersion,
      hp ▸ h.verifySignature algorithm under.accepts, ?_, ?_, ?_⟩
    · -- without a minimum every version will do
      intro minimum hmin
      rw [noMinimum] at hmin
      cases hmin
    · show preamble.bodyLength ≤ body.length
      rw [h.length]
      exact hbody.length_le
    · show v.bodyValid (body.take preamble.bodyLength) preamble.bodySignature _ = true
      rw [range]
      exact h.vouches.bodyValid under algorithm hp hf
  · simp only [TrustChain.facts, hversion, hflags, hsubkey, h.length]

/-- The chain of a slot is trusted wherever it starts an area, on the same body. -/
theorem Built.trusted {source : ChainSource} {options : VerifyOptions} {area body : Bytes}
    (h : s.Built image slot built) (under : s.TrustedUnder root)
    (made : source.keyblock = .ok s.keyblock)
    (algorithm : s.keyblock.dataKey.algorithm = s.dataKey.algorithm.raw)
    (noMinimum : options.minVersion = none)
    (allowed : options.bootMode.all s.keyblock.allows = true) (hbody : slot.body.slice image = some body)
    (start : built.2 <+: area) :
    Verifier.judge ⟨options, s.primitives, s.payload⟩ root area body
      = .trusted (s.factsOf (SignedSlot.ofBuilt built)) := by
  obtain ⟨body', preamble, hbody', fits, chain⟩ := h.signedChain
  obtain rfl := Option.some.inj (hbody.symm.trans hbody')
  rw [chain.trusted (v := ⟨options, s.primitives, s.payload⟩) under made algorithm rfl rfl noMinimum
    allowed (List.take_prefix _ _) start, List.length_take_of_le fits]
  rfl

/-! ## All slots -/

/-- Each slot that a signing reports is trusted in the signed image. -/
theorem trusted_of_mem_report {source : ChainSource} {layout : SlotLayout} {image' : Bytes}
    {report : SignReport} {verification : VerifyOptions} {entry : SignedSlot}
    (made : source.keyblock = .ok s.keyblock)
    (algorithm : s.keyblock.dataKey.algorithm = s.dataKey.algorithm.raw)
    (apart : layout.ChainsApart) (under : s.TrustedUnder root)
    (noMinimum : verification.minVersion = none)
    (allowed : verification.bootMode.all s.keyblock.allows = true)
    (signed : s.sign layout image = .ok report image') (hentry : entry ∈ report.slots) :
    ∃ slot area body, layout.locate entry.id = some slot ∧
      slot.chain.slice image' = some area ∧ slot.body.slice image' = some body ∧
      Verifier.judge ⟨verification, s.primitives, s.payload⟩ root area body
        = .trusted (s.factsOf entry) := by
  -- the body is as it was signed, and the chain starts its area
  obtain ⟨slot, built, area, hl, hbuilt, rfl, harea, start, kept⟩ :=
    built_of_mem_report signed apart hentry
  obtain ⟨body, -, -, hbody, -⟩ := hbuilt.signed
  exact ⟨slot, area, body, hl, harea, kept.trans hbody,
    hbuilt.trusted under made algorithm noMinimum allowed hbody start⟩

/-- A signing reports every located slot, and each slot that it reports is trusted in the signed image,
with the facts of the report, the data key and the flags of the keyblock, and the subkey that was
asked for. -/
theorem signed_slots_trusted {source : ChainSource} {dataKey : SigningKey} {options : SignOptions}
    {primitives : TrustPrimitives} {payload : PayloadFormat} {layout : SlotLayout}
    {image' : Bytes} {report : SignReport} {verification : VerifyOptions}
    (made : make source dataKey options primitives payload = .ok s) (apart : layout.ChainsApart)
    (under : s.TrustedUnder root) (noMinimum : verification.minVersion = none)
    (allowed : verification.bootMode.all s.keyblock.allows = true)
    (signed : s.sign layout image = .ok report image') :
    report.slots.map (·.id) = (layout.ids.filterMap layout.locate).map (·.id) ∧
    ∀ entry ∈ report.slots, ∃ slot area body, layout.locate entry.id = some slot ∧
      slot.chain.slice image' = some area ∧ slot.body.slice image' = some body ∧
      Verifier.judge ⟨verification, primitives, payload⟩ root area body = .trusted {
        version := entry.version
        flags := entry.flags
        keyVersion := s.keyblock.dataKey.version
        bodyLength := entry.bodyLength
        keyblockFlags := s.keyblock.flags
        dataKey := s.keyblock.dataKey
        subkey := options.subkey } := by
  obtain ⟨hk, algorithm, rfl, rfl, rfl⟩ := make_ok made
  constructor
  · obtain ⟨chains, hplan, -, -, entries⟩ := sign_ok signed
    rw [entries, List.map_map]
    exact ids_of_plan hplan
  · intro entry hentry
    exact trusted_of_mem_report hk algorithm apart under noMinimum allowed signed hentry

/-! ## Two slots -/

/-- An image of two slots, each a chain area of 126 bytes and a body of four. -/
def twoSlots : SlotLayout where
  ids := SlotId.all
  bodyName _ := "body"
  chainName _ := "chain"
  chainArea
    | .a => some ⟨0, 126⟩
    | .b => some ⟨130, 126⟩
  bodyArea
    | .a => some ⟨126, 4⟩
    | .b => some ⟨256, 4⟩

def twoSlotImage : Bytes :=
  List.replicate 126 0xff ++ [1, 2, 3, 4] ++ List.replicate 126 0xff ++ [5, 6, 7, 8]

theorem chainsApart_twoSlots : twoSlots.ChainsApart := by
  intro id _ id' _ slot slot' h h'
  cases id <;> cases id' <;> obtain rfl := Option.some.inj h <;> obtain rfl := Option.some.inj h'
  · exact ⟨Area.disjoint_of_le (by decide), fun h => absurd rfl h⟩
  · exact ⟨Area.disjoint_of_le (by decide), fun _ => Area.disjoint_of_le (by decide)⟩
  · exact ⟨Area.disjoint_of_le (by decide), fun _ => Area.disjoint_of_le (by decide)⟩
  · exact ⟨Area.disjoint_of_le (by decide), fun h => absurd rfl h⟩

/-- Signs with the sum of the bytes, and reuses the keyblock of the sample chain. -/
def sampleSigner : Signer where
  keyblock := TrustChain.sample.keyblock
  dataKey := ⟨.ed25519, 1, [7], fun data => .ok [data.foldl (· + ·) 0]⟩
  options := { SignOptions.none with version := some 7 }
  primitives := {
    digest := Software.digest
    checkKey _ := .ok ()
    verify key data blob :=
      if blob = [data.foldl (· + ·) 0] ∨ key = TrustChain.sampleRoot ∧ blob = [1] then .ok ()
      else .error .invalidSignature }
  payload := .raw

theorem trustedUnder_sampleSigner : sampleSigner.TrustedUnder TrustChain.sampleRoot where
  keyUsable := rfl
  keyVersion := by decide
  accepts := by
    intro data blob h
    cases h
    exact if_pos (.inl rfl)
  keyblockSigned := by decide +kernel

/-- The sample chain can be reused for whatever is asked, with any primitives and payloads. -/
theorem make_reuse_sample (options : SignOptions) (primitives : TrustPrimitives)
    (payload : PayloadFormat) :
    make (.reuse TrustChain.sampleBytes) sampleSigner.dataKey options primitives payload
      = .ok { sampleSigner with options, primitives, payload } := by
  have parsed := TrustChain.parse_sampleBytes_append []
  rw [List.append_nil, TrustChain.parse_eq_ok] at parsed
  simp only [make, ChainSource.keyblock, parsed.1, Except.mapError]
  rfl

theorem make_sampleSigner : make (.reuse TrustChain.sampleBytes) sampleSigner.dataKey
    sampleSigner.options sampleSigner.primitives .raw = .ok sampleSigner :=
  make_reuse_sample _ _ _

/-- Both slots are signed, and both are trusted in normal mode. -/
theorem two_slots_trusted : ∃ report image',
    sampleSigner.sign twoSlots twoSlotImage = .ok report image' ∧
    report.slots = [⟨.a, 7, 0, 4, 124, false⟩, ⟨.b, 7, 0, 4, 124, false⟩] ∧
    ∀ entry ∈ report.slots, ∃ slot area body, twoSlots.locate entry.id = some slot ∧
      slot.chain.slice image' = some area ∧ slot.body.slice image' = some body ∧
      Verifier.judge ⟨⟨none, some .normal, none⟩, sampleSigner.primitives, .raw⟩
        TrustChain.sampleRoot area body
        = .trusted ⟨7, 0, 5, 4, .all, ⟨1, 5, [7]⟩, none⟩ := by
  have run : ((sampleSigner.sign twoSlots).run' twoSlotImage).map (·.slots)
      = some [⟨.a, 7, 0, 4, 124, false⟩, ⟨.b, 7, 0, 4, 124, false⟩] := by
    decide +kernel
  obtain ⟨report, image', signed, slots⟩ := run'_map_eq_some.1 run
  refine ⟨report, image', signed, slots, ?_⟩
  intro entry he
  obtain ⟨-, all⟩ := signed_slots_trusted make_sampleSigner chainsApart_twoSlots
    trustedUnder_sampleSigner (rfl : (VerifyOptions.mk none (some .normal) none).minVersion = none)
    (by decide) signed
  obtain ⟨slot, area, body, hl, ha, hb, trusted⟩ := all entry he
  rw [slots] at he
  refine ⟨slot, area, body, hl, ha, hb, ?_⟩
  rcases List.mem_pair.1 he with rfl | rfl <;> exact trusted

end Signer
end VerifiedBoot
