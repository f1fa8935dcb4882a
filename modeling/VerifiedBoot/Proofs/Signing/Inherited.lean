/-
What a signing inherits from a trusted slot. The verifier, the codec and the signer each read the chain
of a slot on their own. The signer asks less than the verifier, who asks for the root key as well, so
that a slot that is trusted is never taken for one without a chain, and signing it again keeps version
and flags. Its signed length is kept only where the body has no say: a length that the payload format
finds in the body comes first, and where metadata are signed, so does the whole body.
-/
import VerifiedBoot.Proofs.Signing.Again
import VerifiedBoot.Proofs.Signing.Integrity

namespace VerifiedBoot

/-- The signer finds in place what the verifier has checked. -/
theorem Verifier.Passes.inspect {v : Verifier} {key : PackedKey} {c : TrustChain} {area body : Bytes}
    (h : v.Passes key c body) (parsed : TrustChain.parse area = .ok c) :
    ExistingChain.inspect area body.length v.primitives
      = some ⟨c.preamble.version, c.preamble.flags, c.preamble.bodyLength⟩ :=
  ExistingChain.inspect_of_parse parsed h.keyUsable h.preambleSigned h.bodyFits

/-! ## Decisions -/

/-- What is asked for, or else inherited. -/
theorem getD_orElse_some {α : Type} (asked : Option α) (inherited default : α) :
    (asked <|> some inherited).getD default = asked.getD inherited := by
  cases asked <;> rfl

/-- What a signing decides for a slot: what is asked for, or else what the chain in place says, or else
a default. Of the signed length the body has a say before the chain. -/
structure SignedSlot.Decided (entry : SignedSlot) (s : Signer) (body : Bytes)
    (existing : Option ExistingChain) : Prop where
  version : entry.version = (s.options.version <|> existing.map (·.version)).getD 1
  flags : entry.flags = (s.options.flags <|> existing.map (·.flags)).getD 0
  bodyLength : entry.bodyLength = (s.statedLength entry.id body).getD
    (if entry.digestSigned then body.length else existing.elim body.length (·.bodyLength))

/-- A chain says what the entry of its slot says, and stands for the signed range of the body. -/
structure SignedSlot.CarriedBy (entry : SignedSlot) (c : TrustChain) (s : Signer) (body : Bytes) :
    Prop where
  keyblock : c.keyblock = s.keyblock
  version : c.preamble.version = entry.version
  flags : c.preamble.flags = entry.flags
  bodyLength : c.preamble.bodyLength = entry.bodyLength
  vouches : s.Vouches (body.take entry.bodyLength) c.preamble.bodySignature

namespace Signer
variable {s : Signer} {layout : SlotLayout} {image image' : Bytes} {report : SignReport}

theorem eq_of_signedLength {id : SlotId} {bodyName : String} {body : Bytes}
    {existing : Option ExistingChain} {integrity : Bool} {n : Nat}
    (h : s.signedLength id bodyName body existing integrity = .ok n) :
    n = (s.statedLength id body).getD
      (if integrity then body.length else existing.elim body.length (·.bodyLength)) := by
  unfold signedLength at h
  cases hstated : s.statedLength id body with
  | some length =>
    simp only [hstated] at h
    split_ifs at h
    exact (Except.ok.inj h).symm
  | none =>
    simp only [hstated] at h
    split_ifs at h with integrity
    · rw [if_pos integrity]
      exact (Except.ok.inj h).symm
    · rw [if_neg integrity]
      exact (Except.ok.inj h).symm

/-- The entry of a slot says what was decided by the body and the chain that the image had. -/
theorem decided_of_mem_report (h : s.sign layout image = .ok report image') {entry : SignedSlot}
    (he : entry ∈ report.slots) {slot : Slot} (hl : layout.locate entry.id = some slot)
    {area body : Bytes} (harea : slot.chain.slice image = some area)
    (hbody : slot.body.slice image = some body) :
    entry.Decided s body (ExistingChain.inspect area body.length s.primitives) := by
  obtain ⟨found, hs, built, hbuild, rfl⟩ := build_of_mem_report h he
  obtain ⟨id, -, hfound⟩ := List.mem_filterMap.1 hs
  have blank := SlotLayout.blank_of_locate hfound
  have prepared := (builtFrom_of_build hbuild).prepared
  have same : built.1.id = id := (prepare_ok prepared).1.1.trans blank.1
  obtain rfl := Option.some.inj (hl.symm.trans ((congrArg layout.locate same).trans hfound))
  have decided := isSome_metadataHash_of_prepare prepared blank.2
  obtain ⟨body', hbody', area', harea', n, hn, hash, -, hprepared⟩ := prepare_eq_ok.1 prepared
  obtain rfl := Option.some.inj (hbody.symm.trans hbody')
  obtain rfl := Option.some.inj (harea.symm.trans harea')
  have length := eq_of_signedLength hn
  rw [← decided] at length
  unfold SignedSlot.ofBuilt
  rw [← hprepared] at length ⊢
  exact ⟨rfl, rfl, length⟩

/-- A located slot has an entry. -/
theorem exists_mem_report_of_locate (h : s.sign layout image = .ok report image') {id : SlotId}
    (hid : id ∈ layout.ids) {slot : Slot} (hl : layout.locate id = some slot) :
    ∃ entry ∈ report.slots, entry.id = id := by
  obtain ⟨chains, hplan, -, -, entries⟩ := sign_ok h
  obtain ⟨built, hb, same⟩ := exists_mem_plan_of_locate hplan hid hl
  rw [entries]
  exact ⟨SignedSlot.ofBuilt built, List.mem_map_of_mem hb, same⟩

/-- The chain that is in place for an entry afterwards carries what the entry says. -/
theorem carried_of_mem_report {source : ChainSource} (made : source.keyblock = .ok s.keyblock)
    (h : s.sign layout image = .ok report image') (apart : layout.ChainsApart) {entry : SignedSlot}
    (he : entry ∈ report.slots) {slot : Slot} (hl : layout.locate entry.id = some slot) {body : Bytes}
    (hbody : slot.body.slice image = some body) :
    ∃ area c, slot.chain.slice image' = some area ∧ TrustChain.parse area = .ok c ∧
      entry.CarriedBy c s body := by
  obtain ⟨found, built, area, hfound, hbuilt, rfl, harea, start, -⟩ := built_of_mem_report h apart he
  obtain rfl := Option.some.inj (hl.symm.trans hfound)
  obtain ⟨body', preamble, hbody', fits, chain⟩ := hbuilt.signedChain
  obtain rfl := Option.some.inj (hbody.symm.trans hbody')
  obtain ⟨hversion, hflags, -⟩ := chain.fields
  have length := chain.length
  rw [List.length_take_of_le fits] at length
  exact ⟨area, _, harea, chain.parse made start, rfl, hversion, hflags, length, chain.vouches⟩

end Signer

/-! ## Trusted slots -/

/-- What is decided for a slot that is trusted. What is not asked for is inherited; only of the signed
length the body has a say first, by the content length that its format finds in it, or as a whole
where metadata are signed. -/
structure SignedSlot.Inherits (entry : SignedSlot) (options : SignOptions) (payload : PayloadFormat)
    (body : Bytes) (slot : TrustedSlot) : Prop where
  version : entry.version = options.version.getD slot.version
  flags : entry.flags = options.flags.getD slot.flags
  bodyLength : entry.bodyLength = (options.bodyLength entry.id <|> payload.contentLength body).getD
    (if entry.digestSigned then body.length else slot.bodyLength)

theorem SignedSlot.Decided.inherits {entry : SignedSlot} {s : Signer} {body : Bytes}
    {slot : TrustedSlot}
    (h : entry.Decided s body (some ⟨slot.version, slot.flags, slot.bodyLength⟩)) :
    entry.Inherits s.options s.payload body slot := by
  refine ⟨?_, ?_, h.bodyLength⟩
  · rw [h.version]
    exact getD_orElse_some _ _ _
  · rw [h.flags]
    exact getD_orElse_some _ _ _

/-- The area of a trusted slot is read as a chain that says what the verifier says of the slot and ends
inside the area, and the signer, with the same primitives, finds version, flags and signed length of
the slot in it. Each signing of an image that holds the slot inherits them: where nothing else is asked
for, it decides version and flags as they were, and the signed length as well unless the body has a say
in it. The chain that it puts in place says what was decided. -/
theorem Verifier.trusted_slot_inherited {v : Verifier} {root : PackedKey} {area body : Bytes}
    {slot : TrustedSlot} (trusted : v.judge root area body = .trusted slot) :
    (∃ c, TrustChain.parse area = .ok c ∧ c.facts = slot ∧ c.byteLength ≤ area.length) ∧
    ExistingChain.inspect area body.length v.primitives
      = some ⟨slot.version, slot.flags, slot.bodyLength⟩ ∧
    ∀ source dataKey options payload s layout image report image' id located,
      Signer.make source dataKey options v.primitives payload = .ok s →
      id ∈ layout.ids → layout.locate id = some located →
      located.chain.slice image = some area → located.body.slice image = some body →
      s.sign layout image = .ok report image' →
      (∃ entry ∈ report.slots, entry.id = id) ∧
      ∀ entry ∈ report.slots, entry.id = id → entry.Inherits options payload body slot ∧
        (layout.ChainsApart → ∃ area' c', located.chain.slice image' = some area' ∧
          TrustChain.parse area' = .ok c' ∧ entry.CarriedBy c' s body) := by
  obtain ⟨c, parsed, passes, rfl⟩ := judge_eq_trusted_iff.1 trusted
  have found := passes.inspect parsed
  refine ⟨⟨c, parsed, rfl, TrustChain.byteLength_le_of_parse parsed⟩, found, ?_⟩
  intro source dataKey options payload s layout image report image' id located made hid hl harea
    hbody signed
  obtain ⟨hk, -, rfl, primitives, rfl⟩ := Signer.make_ok made
  refine ⟨Signer.exists_mem_report_of_locate signed hid hl, ?_⟩
  rintro entry he rfl
  have decided := Signer.decided_of_mem_report signed he hl harea hbody
  rw [primitives, found] at decided
  exact ⟨decided.inherits, fun apart => Signer.carried_of_mem_report hk signed apart he hl hbody⟩

namespace Signer

/-- The image that a signing leaves, whether it succeeds or not. -/
def imageAfter (s : Signer) (layout : SlotLayout) (image : Bytes) : Bytes :=
  match s.sign layout image with
  | .ok _ signed => signed
  | .error _ left => left

/-- A slot with a chain area of 140 bytes and a body of 20. -/
def oneSlot : SlotLayout where
  ids := [.a]
  bodyName _ := "body"
  chainName _ := "chain"
  chainArea _ := some ⟨0, 140⟩
  bodyArea _ := some ⟨140, 20⟩

theorem chainsApart_oneSlot : oneSlot.ChainsApart := by
  intro id hid id' hid' slot slot' h h'
  obtain rfl := List.mem_singleton.1 hid
  obtain rfl := List.mem_singleton.1 hid'
  obtain rfl := Option.some.inj h
  obtain rfl := Option.some.inj h'
  exact ⟨Area.disjoint_of_le (by decide), fun differ => absurd rfl differ⟩

/-- An indexed body without metadata, which gives its length as 20 bytes. -/
def countedBody : Bytes := IndexedHeader.encode ⟨0, 0, 20⟩ ++ [1, 2, 3, 4]

/-- The slot with this body, of which four bytes are signed, as version 7. -/
def shortlySigned : Bytes :=
  imageAfter
    { sampleSigner with
      options := { sampleSigner.options with bodyLength := fun _ => some 4 } }
    oneSlot (List.replicate 140 0xff ++ countedBody)

/-- The slot is trusted, and is signed again with its version and its length by a signer that asks for
nothing and knows of no lengths in bodies. -/
theorem version_and_length_inherited : ∃ report image',
    Verifier.judge ⟨.none, inheritingSigner.primitives, .raw⟩ TrustChain.sampleRoot
      (shortlySigned.take 140) countedBody = .trusted ⟨7, 0, 5, 4, .all, ⟨1, 5, [7]⟩, none⟩ ∧
    inheritingSigner.sign oneSlot shortlySigned = .ok report image' ∧
    (∃ entry ∈ report.slots, entry.id = .a) ∧
    ∀ entry ∈ report.slots, entry.id = .a →
      (entry.version = 7 ∧ entry.flags = 0 ∧ entry.bodyLength = 4) ∧
      ∃ area c, (Area.mk 0 140).slice image' = some area ∧ TrustChain.parse area = .ok c ∧
        c.preamble.version = 7 := by
  have trusted : Verifier.judge ⟨.none, inheritingSigner.primitives, .raw⟩ TrustChain.sampleRoot
      (shortlySigned.take 140) countedBody = .trusted ⟨7, 0, 5, 4, .all, ⟨1, 5, [7]⟩, none⟩ := by
    decide +kernel
  have harea : (Area.mk 0 140).slice shortlySigned = some (shortlySigned.take 140) := by
    decide +kernel
  have hbody : (Area.mk 140 20).slice shortlySigned = some countedBody := by decide +kernel
  have run : ((inheritingSigner.sign oneSlot).run' shortlySigned).map (·.slots)
      = some [⟨.a, 7, 0, 4, 124, false⟩] := by
    decide +kernel
  obtain ⟨report, image', signed, slots⟩ := run'_map_eq_some.1 run
  obtain ⟨-, -, inherited⟩ := Verifier.trusted_slot_inherited trusted
  obtain ⟨reported, all⟩ := inherited _ _ _ _ _ oneSlot _ _ _ .a (.ofAreas .a ⟨140, 20⟩ ⟨0, 140⟩)
    make_inheritingSigner List.mem_cons_self rfl harea hbody signed
  refine ⟨report, image', trusted, signed, reported, ?_⟩
  intro entry he hid
  obtain ⟨⟨version, flags, bodyLength⟩, inPlace⟩ := all entry he hid
  obtain ⟨area, c, hc, parsed, carried⟩ := inPlace chainsApart_oneSlot
  have digest : entry.digestSigned = false := by
    rw [slots] at he
    obtain rfl := List.mem_singleton.1 he
    rfl
  rw [digest] at bodyLength
  exact ⟨⟨version, flags, bodyLength⟩, area, c, hc, parsed, carried.version.trans version⟩

/-- Asks for nothing, and signs indexed bodies. -/
def countingSigner : Signer := { inheritingSigner with payload := .indexed }

/-- To a verifier of indexed bodies as well the slot is trusted with a signed length of four bytes; a
signer of indexed bodies that asks for nothing signs the 20 bytes that the body gives instead. -/
theorem signed_length_not_inherited : ∃ report image',
    make (.reuse TrustChain.sampleBytes) countingSigner.dataKey .none countingSigner.primitives .indexed
      = .ok countingSigner ∧
    (Area.mk 0 140).slice shortlySigned = some (shortlySigned.take 140) ∧
    (Area.mk 140 20).slice shortlySigned = some countedBody ∧
    Verifier.judge ⟨.none, countingSigner.primitives, .indexed⟩ TrustChain.sampleRoot
      (shortlySigned.take 140) countedBody = .trusted ⟨7, 0, 5, 4, .all, ⟨1, 5, [7]⟩, none⟩ ∧
    countingSigner.sign oneSlot shortlySigned = .ok report image' ∧
    report.slots = [⟨.a, 7, 0, 20, 124, false⟩] := by
  have run : ((countingSigner.sign oneSlot).run' shortlySigned).map (·.slots)
      = some [⟨.a, 7, 0, 20, 124, false⟩] := by
    decide +kernel
  obtain ⟨report, image', signed, slots⟩ := run'_map_eq_some.1 run
  exact ⟨report, image', make_reuse_sample _ _ _, by decide +kernel, by decide +kernel,
    by decide +kernel, signed, slots⟩

end Signer
end VerifiedBoot
