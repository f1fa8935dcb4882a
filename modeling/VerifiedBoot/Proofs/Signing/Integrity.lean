/-
Whether metadata are signed is decided once for an image and holds in every slot of it. Where they
are, each chain that is written holds the digest of the metadata of the signed range, which matches
them; where they are not, each chain holds a signature of exactly that range. No slot of a signing
differs from the others in this.
-/
import VerifiedBoot.Proofs.Payload.Binding
import VerifiedBoot.Proofs.Signing.AllOrNothing

namespace VerifiedBoot

/-! ## Digests of metadata -/

/-- The range of an indexed body that a digest stands for is all the content that the header of the
body declares, with its metadata. -/
theorem Signature.DigestOf.header {signature : Signature} {primitives : TrustPrimitives} {body : Bytes}
    {n : Nat} (h : signature.DigestOf .indexed primitives (body.take n)) (hn : n ≤ body.length) :
    ∃ header, IndexedHeader.parse body = .ok header ∧ header.contentSize.toNat = n ∧
      header.declaresIntegrity = true := by
  obtain ⟨header, found, size, -⟩ := IndexedPayload.contentMatches_iff.1 h.matched
  obtain ⟨start, room, -, declared⟩ := IndexedPayload.integrityHeader?_eq_some.1 found
  rw [List.length_take_of_le hn] at size
  refine ⟨header, IndexedHeader.parse_eq_ok.2 ⟨?_, room, size ▸ hn⟩, size, declared⟩
  exact start.trans (List.take_prefix _ _)

namespace Signer
variable {s : Signer} {image : Bytes} {layout : SlotLayout}

/-! ## One slot -/

/-- A slot is prepared with a metadata hash just if metadata are signed. -/
theorem isSome_metadataHash_of_prepare {slot prepared : Slot} {bodyName chainName : String}
    {integrity : Bool} (h : s.prepare image slot bodyName chainName integrity = .ok prepared)
    (blank : slot.metadataHash = none) : prepared.metadataHash.isSome = integrity := by
  obtain ⟨_, -, _, -, _, -, hash, hhash, rfl⟩ := prepare_eq_ok.1 h
  cases integrity with
  | true =>
    simp only [↓reduceIte, map_eq_ok] at hhash
    obtain ⟨found, -, rfl⟩ := hhash
    rfl
  | false =>
    obtain rfl := Except.ok.inj hhash
    show slot.metadataHash.isSome = false
    rw [blank]
    rfl

/-- The chain that is built for a slot stands for the start of the body, as it was decided for all
slots of the image. -/
theorem BuiltFrom.signedChain_signedAs {slot : Slot} {built : Slot × Bytes}
    (h : s.BuiltFrom layout image slot built) (blank : slot.metadataHash = none) :
    built.1.metadataHash.isSome = s.integrityIn layout image ∧
    ∃ body preamble, slot.body.slice image = some body ∧ built.1.bodyLength ≤ body.length ∧
      s.SignedChain (body.take built.1.bodyLength) built.1.version built.1.flags preamble built.2 ∧
      s.SignedAs (s.integrityIn layout image) (body.take built.1.bodyLength)
        preamble.bodySignature := by
  have decided := isSome_metadataHash_of_prepare h.prepared blank
  obtain ⟨-, -, body, hbody, fits, metadata⟩ := prepare_ok h.prepared
  have chain := h.chain
  simp only [chainOf, signedBody_of_prepare h.prepared hbody] at chain
  obtain ⟨preamble, signed, signedAs⟩ := signedChain_of_chainFor chain (by
    intro found hf
    rcases metadata with none | ⟨_, some, valid⟩
    · rw [none, blank] at hf
      cases hf
    · obtain rfl := Option.some.inj (some.symm.trans hf)
      exact valid)
  rw [decided] at signedAs
  exact ⟨decided, body, preamble, hbody, fits, signed, signedAs⟩

/-! ## All slots -/

/-- What is written and reported for a slot of an image, by whether metadata are signed. -/
structure SealedFrom (s : Signer) (image : Bytes) (integrity : Bool) (slot : Slot)
    (entry : SignedSlot) (chain : Bytes) : Prop where
  id : entry.id = slot.id
  reported : entry.digestSigned = integrity
  chain : ∃ body preamble, slot.body.slice image = some body ∧ entry.bodyLength ≤ body.length ∧
    (∀ tail, TrustChain.parse (chain ++ tail) = .ok { keyblock := s.keyblock, preamble }) ∧
    preamble.bodySignature.dataSize.toNat = entry.bodyLength ∧
    s.SignedAs integrity (body.take entry.bodyLength) preamble.bodySignature
  /-- The signed range of an indexed body with a digest is what its header declares. -/
  header : s.payload = .indexed → integrity = true → ∃ body header,
    slot.body.slice image = some body ∧ IndexedHeader.parse body = .ok header ∧
    header.contentSize.toNat = entry.bodyLength ∧ header.declaresIntegrity = true

theorem BuiltFrom.sealedFrom {source : ChainSource} {slot : Slot} {built : Slot × Bytes}
    (h : s.BuiltFrom layout image slot built) (blank : slot.metadataHash = none)
    (made : source.keyblock = .ok s.keyblock) :
    s.SealedFrom image (s.integrityIn layout image) slot (SignedSlot.ofBuilt built) built.2 := by
  obtain ⟨⟨hid, -, -⟩, -⟩ := prepare_ok h.prepared
  obtain ⟨decided, body, preamble, hbody, fits, signed, signedAs⟩ := h.signedChain_signedAs blank
  have size := signedAs.dataSize
  rw [List.length_take_of_le fits] at size
  refine ⟨hid, decided, ⟨body, preamble, hbody, fits, fun tail => ?_, size, signedAs⟩, ?_⟩
  · exact signed.parse made (List.prefix_append _ _)
  · intro indexed integrity
    rw [integrity] at signedAs
    have digest : preamble.bodySignature.DigestOf s.payload s.primitives
      (body.take built.1.bodyLength) := signedAs
    rw [indexed] at digest
    obtain ⟨header, parsed, content, declared⟩ := digest.header fits
    exact ⟨body, header, hbody, parsed, content, declared⟩

theorem blank_of_mem_located {slot : Slot} (h : slot ∈ layout.ids.filterMap layout.locate) :
    slot.metadataHash = none := by
  obtain ⟨id, -, hl⟩ := List.mem_filterMap.1 h
  exact (SlotLayout.blank_of_locate hl).2

/-- What is written for the slots of a plan, with one decision about metadata. -/
theorem sealedFrom_of_plan {source : ChainSource} {chains : List (Slot × Bytes)}
    (h : s.plan layout image = .ok chains) (made : source.keyblock = .ok s.keyblock) :
    List.Forall₂ (fun slot built => built.1.chain = slot.chain ∧
        s.SealedFrom image (s.integrityIn layout image) slot (SignedSlot.ofBuilt built) built.2)
      (layout.ids.filterMap layout.locate) chains := by
  have located := (List.forall₂_and_left _ _).2 ⟨fun slot hs => hs, builtFrom_of_plan h⟩
  refine located.imp ?_
  rintro slot built ⟨hs, hbuilt⟩
  exact ⟨hbuilt.area, hbuilt.sealedFrom (blank_of_mem_located hs) made⟩

/-- The bodies by which it is decided whether metadata are signed are those of all located slots. -/
theorem bodies_of_plan {chains : List (Slot × Bytes)} (h : s.plan layout image = .ok chains) :
    (layout.ids.filterMap layout.locate).map (fun slot => slot.body.slice image)
      = ((layout.ids.filterMap layout.locate).filterMap fun slot => slot.body.slice image).map
          some := by
  rw [List.map_filterMap_some_eq_filter_map_isSome, List.filter_eq_self.2]
  intro found hfound
  obtain ⟨slot, hs, rfl⟩ := List.mem_map.1 hfound
  obtain ⟨built, -, hbuild⟩ := List.mem_map.1 (plan_ok h ▸ List.mem_map_of_mem hs)
  obtain ⟨body, _, _, hbody, -⟩ := (build_ok hbuild.symm (blank_of_mem_located hs)).signed
  rw [hbody]
  rfl

theorem integrityMode_eq_true_iff {bodies : List Bytes} (auto : s.options.integrity = .auto) :
    s.integrityMode bodies = true ↔ ∃ body ∈ bodies, s.payload.integrityDeclared body = true := by
  unfold integrityMode
  rw [auto]
  exact List.any_eq_true

/-- All slots of an image are signed alike: with digests of metadata where that is required, or where
one located body declares them and nothing else was asked for, and else with signatures of the
bodies. What is signed is exactly the range that is reported, which for an indexed body with a digest
is what its header declares. -/
theorem signed_alike {source : ChainSource} {dataKey : SigningKey} {options : SignOptions}
    {primitives : TrustPrimitives} {payload : PayloadFormat} {image' : Bytes} {report : SignReport}
    (made : make source dataKey options primitives payload = .ok s)
    (signed : s.sign layout image = .ok report image') :
    ∃ integrity bodies chains,
      (layout.ids.filterMap layout.locate).map (fun slot => slot.body.slice image)
        = bodies.map some ∧
      integrity = s.integrityMode bodies ∧
      (options.integrity = .required → integrity = true) ∧
      (options.integrity = .disabled → integrity = false) ∧
      (options.integrity = .auto →
        (integrity = true ↔ ∃ body ∈ bodies, payload.integrityDeclared body = true)) ∧
      (∀ entry ∈ report.slots, entry.digestSigned = integrity) ∧
      report.slots = chains.map SignedSlot.ofBuilt ∧
      image' = image.overwriteAll (chains.map fun built => (built.1.chain.offset, built.2)) ∧
      List.Forall₂ (fun slot built => built.1.chain = slot.chain ∧
          s.SealedFrom image integrity slot (SignedSlot.ofBuilt built) built.2)
        (layout.ids.filterMap layout.locate) chains := by
  obtain ⟨hk, -, rfl, rfl, rfl⟩ := make_ok made
  obtain ⟨chains, hplan, -, himage, entries⟩ := sign_ok signed
  have slots := sealedFrom_of_plan hplan hk
  refine ⟨s.integrityIn layout image, _, chains, bodies_of_plan hplan, rfl, ?_, ?_,
    integrityMode_eq_true_iff, ?_, entries, himage, slots⟩
  · intro required
    unfold integrityIn integrityMode
    rw [required]
  · intro disabled
    unfold integrityIn integrityMode
    rw [disabled]
  · intro entry he
    rw [entries] at he
    obtain ⟨built, hb, rfl⟩ := List.mem_map.1 he
    obtain ⟨slot, hs, hbuild⟩ := List.mem_map.1 (plan_ok hplan ▸ List.mem_map_of_mem hb)
    exact isSome_metadataHash_of_prepare (builtFrom_of_build hbuild).prepared
      (blank_of_mem_located hs)

/-- An image of two slots, each a chain area of 160 bytes and an indexed body of 50 bytes in an area of
60. -/
def indexedSlots : SlotLayout where
  ids := SlotId.all
  bodyName _ := "body"
  chainName _ := "chain"
  chainArea
    | .a => some ⟨0, 160⟩
    | .b => some ⟨220, 160⟩
  bodyArea
    | .a => some ⟨160, 60⟩
    | .b => some ⟨380, 60⟩

def indexedSlotImage : Bytes :=
  List.replicate 160 0xff ++ IndexedPayload.sampleBody [1, 2] ++ List.replicate 10 0
    ++ List.replicate 160 0xff ++ IndexedPayload.sampleBody [2, 1] ++ List.replicate 10 0

/-- Signs indexed bodies, with sums of bytes for digests. -/
def indexedSigner : Signer :=
  { sampleSigner with
    primitives := { sampleSigner.primitives with digest := TrustPrimitives.summing.digest }
    payload := .indexed }

theorem make_indexedSigner : make (.reuse TrustChain.sampleBytes) indexedSigner.dataKey
    indexedSigner.options indexedSigner.primitives .indexed = .ok indexedSigner :=
  make_reuse_sample _ _ _

/-- Both bodies declare metadata, and the digest of the metadata is signed in both slots, for the 50
bytes that the headers declare and not for the whole areas. -/
theorem indexed_slots_alike : ∃ report image' chainA chainB,
    indexedSigner.sign indexedSlots indexedSlotImage = .ok report image' ∧
    report.slots = [⟨.a, 7, 0, 50, 155, true⟩, ⟨.b, 7, 0, 50, 155, true⟩] ∧
    image' = indexedSlotImage.overwriteAll [(0, chainA), (220, chainB)] ∧
    indexedSigner.SealedFrom indexedSlotImage true (.ofAreas .a ⟨160, 60⟩ ⟨0, 160⟩)
      ⟨.a, 7, 0, 50, 155, true⟩ chainA ∧
    indexedSigner.SealedFrom indexedSlotImage true (.ofAreas .b ⟨380, 60⟩ ⟨220, 160⟩)
      ⟨.b, 7, 0, 50, 155, true⟩ chainB := by
  have run : ((indexedSigner.sign indexedSlots).run' indexedSlotImage).map (·.slots)
      = some [⟨.a, 7, 0, 50, 155, true⟩, ⟨.b, 7, 0, 50, 155, true⟩] := by
    decide +kernel
  obtain ⟨report, image', signed, slots⟩ := run'_map_eq_some.1 run
  obtain ⟨integrity, _, chains, -, -, -, -, -, reported, entries, himage, all⟩ :=
    signed_alike make_indexedSigner signed
  have located : indexedSlots.ids.filterMap indexedSlots.locate
      = [.ofAreas .a ⟨160, 60⟩ ⟨0, 160⟩, .ofAreas .b ⟨380, 60⟩ ⟨220, 160⟩] := rfl
  rw [located] at all
  obtain ⟨first, _, ⟨firstArea, hfirst⟩, others, rfl⟩ := List.forall₂_cons_left_iff.1 all
  obtain ⟨second, _, ⟨secondArea, hsecond⟩, none, rfl⟩ := List.forall₂_cons_left_iff.1 others
  obtain rfl := List.forall₂_nil_left_iff.1 none
  rw [slots] at entries reported
  obtain rfl := reported _ List.mem_cons_self
  obtain ⟨entryA, rest⟩ := List.cons.inj entries
  obtain ⟨entryB, -⟩ := List.cons.inj rest
  simp only [List.map_cons, List.map_nil, firstArea, secondArea] at himage
  exact ⟨report, image', first.2, second.2, signed, slots, himage, entryA ▸ hfirst, entryB ▸ hsecond⟩

end Signer
end VerifiedBoot
