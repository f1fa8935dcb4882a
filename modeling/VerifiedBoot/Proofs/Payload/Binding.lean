/-
No byte of the content escapes a digest. The digest of the metadata binds header and index, the
index binds the blocks of the content, and the blocks are the whole content: two ranges that match
metadata of one digest are the same, unless two different inputs have the same digest.
-/
import VerifiedBoot.Proofs.Payload.Indexed
import VerifiedBoot.Proofs.Verification.Checks

namespace VerifiedBoot

/-- Two different inputs with the same digest. -/
def TrustPrimitives.Collision (primitives : TrustPrimitives) (a b : Bytes) : Prop :=
  a ≠ b ∧ ∃ digest, primitives.digest .sha256 a = .ok digest ∧ primitives.digest .sha256 b = .ok digest

theorem TrustPrimitives.eq_or_collision {primitives : TrustPrimitives} {a b digest : Bytes}
    (ha : primitives.digest .sha256 a = .ok digest) (hb : primitives.digest .sha256 b = .ok digest) :
    a = b ∨ primitives.Collision a b := by
  by_cases h : a = b
  · exact .inl h
  · exact .inr ⟨h, digest, ha, hb⟩

namespace IndexedPayload
variable {primitives : TrustPrimitives} {x y : Bytes}

/-- What is digested to check a body: its metadata, and each block of its content. -/
def digested (body : Bytes) : List Bytes :=
  match integrityHeader? body with
  | none => []
  | some h => body.take h.metadataEnd :: blocksIn body h

theorem digested_eq {h : IndexedHeader} (hx : integrityHeader? x = some h) :
    digested x = x.take h.metadataEnd :: blocksIn x h := by
  unfold digested
  rw [hx]

/-! ## Metadata -/

theorem metadataHash_eq_some {hash : MetadataHash} :
    PayloadFormat.indexed.metadataHash x primitives = some hash ↔ ∃ h, integrityHeader? x = some h ∧
      primitives.digest .sha256 (x.take h.metadataEnd) = .ok hash.digest ∧
      hash.algorithm = .sha256 := by
  simp only [PayloadFormat.indexed, Option.bind_eq_some_iff, Option.map_eq_some_iff]
  constructor
  · rintro ⟨_, ⟨h, hh, rfl⟩, hd⟩
    unfold MetadataHash.compute at hd
    split at hd
    · next found =>
      cases hd
      exact ⟨h, hh, found, rfl⟩
    · cases hd
  · rintro ⟨h, hh, hd, ha⟩
    refine ⟨_, ⟨h, hh, rfl⟩, ?_⟩
    cases hash
    cases ha
    simp only [MetadataHash.compute, hd]

/-- Metadata starts with the header, so that it has only one. -/
theorem header_eq_of_metadata {h h' : IndexedHeader} (hx : integrityHeader? x = some h)
    (hy : integrityHeader? y = some h') (same : x.take h.metadataEnd = y.take h'.metadataEnd) :
    h = h' := by
  have start : ∀ {body : Bytes} {h : IndexedHeader}, integrityHeader? body = some h →
      h.encode <+: body.take h.metadataEnd := by
    intro body h hh
    obtain ⟨hp, -⟩ := integrityHeader?_eq_some.1 hh
    refine List.prefix_take_iff.2 ⟨hp, ?_⟩
    rw [h.length_encode]
    exact Nat.le_add_right _ _
  obtain ⟨t, ht⟩ := start hx
  obtain ⟨t', ht'⟩ := start hy
  exact (IndexedHeader.encode_append_inj (ht.trans (same.trans ht'.symm))).1

/-! ## Blocks -/

/-- Blocks with the same digests are the same, or two of them collide. -/
theorem blocks_eq_or_collision {blocks blocks' entries : List Bytes}
    (h : blocks.map (primitives.digest .sha256) = entries.map .ok)
    (h' : blocks'.map (primitives.digest .sha256) = entries.map .ok) :
    blocks = blocks' ∨ ∃ b ∈ blocks, ∃ b' ∈ blocks', primitives.Collision b b' := by
  induction entries generalizing blocks blocks' with
  | nil =>
    rw [List.map_eq_nil_iff.1 h, List.map_eq_nil_iff.1 h']
    exact .inl rfl
  | cons entry entries ih =>
    obtain ⟨b, rest, rfl, hb, hrest⟩ := List.map_eq_cons_iff.1 h
    obtain ⟨b', rest', rfl, hb', hrest'⟩ := List.map_eq_cons_iff.1 h'
    rcases TrustPrimitives.eq_or_collision hb hb' with rfl | collide
    · rcases ih hrest hrest' with rfl | ⟨c, hc, c', hc', collide⟩
      · exact .inl rfl
      · exact .inr ⟨c, List.mem_cons_of_mem _ hc, c', List.mem_cons_of_mem _ hc', collide⟩
    · exact .inr ⟨b, List.mem_cons_self, b', List.mem_cons_self, collide⟩

/-- Bodies that match the metadata of one digest are the same, or inputs that were digested to check
them collide. -/
theorem eq_or_collision {hash hash' : MetadataHash}
    (hx : PayloadFormat.indexed.metadataHash x primitives = some hash)
    (hy : PayloadFormat.indexed.metadataHash y primitives = some hash')
    (same : hash.digest = hash'.digest) (mx : contentMatches x primitives = true)
    (my : contentMatches y primitives = true) :
    x = y ∨ ∃ a ∈ digested x, ∃ b ∈ digested y, primitives.Collision a b := by
  obtain ⟨h, hh, hd, -⟩ := metadataHash_eq_some.1 hx
  obtain ⟨h', hh', hd', -⟩ := metadataHash_eq_some.1 hy
  rw [digested_eq hh, digested_eq hh']
  rw [← same] at hd'
  rcases TrustPrimitives.eq_or_collision hd hd' with metadata | collide
  · obtain rfl := header_eq_of_metadata hh hh' metadata
    obtain ⟨g, hg, -, -, digests⟩ := contentMatches_iff.1 mx
    obtain rfl := Option.some.inj (hg.symm.trans hh)
    obtain ⟨g', hg', -, -, digests'⟩ := contentMatches_iff.1 my
    obtain rfl := Option.some.inj (hg'.symm.trans hh')
    -- the index is part of the metadata, and gives both contents the same digests
    rw [indexIn_eq_drop, metadata, ← indexIn_eq_drop] at digests
    rcases blocks_eq_or_collision digests digests' with blocks | ⟨b, hb, b', hb', collide⟩
    · have content := congrArg List.flatten blocks
      rw [flatten_blocksIn, flatten_blocksIn] at content
      refine .inl ?_
      rw [← List.take_append_drop g'.metadataEnd x, metadata, content, List.take_append_drop]
    · exact .inr ⟨b, List.mem_cons_of_mem _ hb, b', List.mem_cons_of_mem _ hb', collide⟩
  · exact .inr ⟨_, List.mem_cons_self, _, List.mem_cons_self, collide⟩

end IndexedPayload

/-! ## Trusted bodies -/

/-- What is known of the signed range of a trusted body whose signature is a digest. -/
theorem Verifier.metadata_of_trusted {v : Verifier} {key : PackedKey} {area body : Bytes}
    {slot : TrustedSlot} {c : TrustChain} (trusted : v.judge key area body = .trusted slot)
    (parsed : TrustChain.parse area = .ok c) (digest : c.preamble.bodySignature.kind = .digest) :
    ∃ hash, v.payload.metadataHash (body.take c.preamble.bodyLength) v.primitives = some hash ∧
      hash.digest = c.preamble.bodySignature.blob ∧
      v.payload.contentMatches (body.take c.preamble.bodyLength) v.primitives = true := by
  obtain ⟨c', parsed', passes, -⟩ := judge_eq_trusted_iff.1 trusted
  obtain rfl := Except.ok.inj (parsed'.symm.trans parsed)
  have valid := passes.bodyValid
  rw [bodyValid_digest digest] at valid
  obtain ⟨hash, found, -, blob, matched⟩ := metadataValid_iff.1 valid
  exact ⟨hash, found, blob, matched⟩

/-- A digest binds every byte of the range it stands for: two ranges that match metadata of the same
digest are the same, and so are the signed ranges of two trusted bodies with the same digest
signature, unless two inputs that were digested collide. -/
theorem digest_binds_signed_range (primitives : TrustPrimitives) :
    (∀ x y hash hash', PayloadFormat.indexed.metadataHash x primitives = some hash →
      PayloadFormat.indexed.metadataHash y primitives = some hash' → hash.digest = hash'.digest →
      PayloadFormat.indexed.contentMatches x primitives = true →
      PayloadFormat.indexed.contentMatches y primitives = true →
      x = y ∨ ∃ a ∈ IndexedPayload.digested x, ∃ b ∈ IndexedPayload.digested y,
        primitives.Collision a b) ∧
    ∀ options options' key key' area area' body body' slot slot' c c',
      Verifier.judge ⟨options, primitives, .indexed⟩ key area body = .trusted slot →
      Verifier.judge ⟨options', primitives, .indexed⟩ key' area' body' = .trusted slot' →
      TrustChain.parse area = .ok c → TrustChain.parse area' = .ok c' →
      c.preamble.bodySignature.kind = .digest →
      c.preamble.bodySignature = c'.preamble.bodySignature →
      body.take c.preamble.bodyLength = body'.take c'.preamble.bodyLength ∨
        ∃ a ∈ IndexedPayload.digested (body.take c.preamble.bodyLength),
          ∃ b ∈ IndexedPayload.digested (body'.take c'.preamble.bodyLength),
            primitives.Collision a b := by
  refine ⟨fun x y hash hash' => IndexedPayload.eq_or_collision, ?_⟩
  intro options options' key key' area area' body body' slot slot' c c' trusted trusted' parsed
    parsed' digest same
  obtain ⟨hash, found, blob, matched⟩ := Verifier.metadata_of_trusted trusted parsed digest
  obtain ⟨hash', found', blob', matched'⟩ :=
    Verifier.metadata_of_trusted trusted' parsed' (same ▸ digest)
  refine IndexedPayload.eq_or_collision found found' ?_ matched matched'
  rw [blob, blob', same]

/-- Digests by the sum of the bytes, and accepts every key and every signature. -/
def TrustPrimitives.summing : TrustPrimitives where
  digest _ data := .ok (List.replicate 32 (data.foldl (· + ·) 0))
  checkKey _ := .ok ()
  verify _ _ _ := .ok ()

/-- A body of two content bytes with the sum 3. -/
def IndexedPayload.sampleBody (content : Bytes) : Bytes :=
  IndexedHeader.encode ⟨1, 32, 50⟩ ++ List.replicate 32 3 ++ content

namespace TrustChain

/-- A chain for every sample body, since they have the same metadata. -/
def digestSample : TrustChain where
  keyblock := sample.keyblock
  preamble := {
    size := 76
    headerVersion := 1
    version := 6
    flags := 9
    bodySignature := ⟨.digest, 2, 50, List.replicate 32 196⟩
    subkey := none
    signature := ⟨.classical, 1, 62, [2]⟩ }

def digestSampleBytes : Bytes := (digestSample.encode 155).toOption.getD []

theorem parse_digestSampleBytes : parse digestSampleBytes = .ok digestSample := by
  have canonical : digestSample.Canonical := ⟨canonical_sample.keyblock, rfl, rfl⟩
  obtain ⟨bs, h⟩ := canonical.encode_ok_iff.2 (by decide : digestSample.byteLength ≤ 155)
  have bytes : digestSampleBytes = bs := by
    rw [digestSampleBytes, h]
    rfl
  have length : bs.length = 155 := length_encode h
  rw [bytes]
  exact parse_eq_ok_iff.2 ⟨canonical, bs, length.symm ▸ h, List.prefix_rfl⟩

end TrustChain

open IndexedPayload TrustChain in
/-- Two bodies that are trusted with one digest signature and are not the same, as the digest is so
weak that two blocks collide. -/
theorem sums_collide :
    Verifier.judge ⟨.none, .summing, .indexed⟩ sampleRoot digestSampleBytes (sampleBody [1, 2])
      = .trusted digestSample.facts ∧
    Verifier.judge ⟨.none, .summing, .indexed⟩ sampleRoot digestSampleBytes (sampleBody [2, 1])
      = .trusted digestSample.facts ∧
    sampleBody [1, 2] ≠ sampleBody [2, 1] ∧
    ∃ a ∈ digested (sampleBody [1, 2]), ∃ b ∈ digested (sampleBody [2, 1]),
      TrustPrimitives.summing.Collision a b := by
  have trusted : Verifier.judge ⟨.none, .summing, .indexed⟩ sampleRoot digestSampleBytes
      (sampleBody [1, 2]) = .trusted digestSample.facts := by decide +kernel
  have trusted' : Verifier.judge ⟨.none, .summing, .indexed⟩ sampleRoot digestSampleBytes
      (sampleBody [2, 1]) = .trusted digestSample.facts := by decide +kernel
  have differ : sampleBody [1, 2] ≠ sampleBody [2, 1] := by decide
  have whole : ∀ content : Bytes, content.length = 2 →
      (sampleBody content).take digestSample.preamble.bodyLength = sampleBody content := by
    intro content h
    refine List.take_of_length_le ?_
    simp only [sampleBody, List.length_append, IndexedHeader.length_encode, List.length_replicate, h]
    decide
  have bound := (digest_binds_signed_range .summing).2 _ _ _ _ _ _ _ _ _ _ _ _ trusted trusted'
    parse_digestSampleBytes parse_digestSampleBytes rfl rfl
  rw [whole _ rfl, whole _ rfl] at bound
  exact ⟨trusted, trusted', differ, bound.resolve_left differ⟩

end VerifiedBoot
