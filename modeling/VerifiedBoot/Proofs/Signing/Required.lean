/-
Required metadata. A signer that requires metadata signs the slots of an image only with digests of
metadata that each body carries and matches, whether it is asked to sign a layout, a firmware image
or a kernel that is signed again, and it refuses a body without metadata. A new kernel is another
matter: its body is signed as it is, whatever is required.
-/
import VerifiedBoot.Proofs.Image.Firmware
import VerifiedBoot.Proofs.Image.Kernel
import VerifiedBoot.Proofs.Signing.Integrity

namespace VerifiedBoot
namespace Signer
variable {s : Signer} {layout : SlotLayout} {image : Bytes}

/-! ## Refused bodies -/

/-- The length of the range of a body whose metadata are signed: as stated, else all of it. -/
def digestLength (s : Signer) (id : SlotId) (body : Bytes) : Nat :=
  (s.statedLength id body).getD body.length

/-- In integrity mode the chain in place has no say in the signed length. -/
theorem signedLength_integrity {id : SlotId} {bodyName : String} {body : Bytes}
    {existing : Option ExistingChain} :
    s.signedLength id bodyName body existing true =
      if body.length < s.digestLength id body then
        .error (.policy (.bodySizeExceedsArea bodyName (s.digestLength id body) body.length))
      else .ok (s.digestLength id body) := by
  unfold signedLength digestLength
  cases s.statedLength id body with
  | some length => rfl
  | none =>
    simp only [Option.getD_none, lt_irrefl, ↓reduceIte]

/-- A slot is prepared for a digest with the range that its metadata are asked for. -/
theorem bodyLength_of_prepare {slot prepared : Slot} {bodyName chainName : String} {body : Bytes}
    (h : s.prepare image slot bodyName chainName true = .ok prepared)
    (hbody : slot.body.slice image = some body) :
    prepared.bodyLength = s.digestLength slot.id body := by
  obtain ⟨body', hbody', _, -, n, hn, _, -, rfl⟩ := prepare_eq_ok.1 h
  obtain rfl := Option.some.inj (hbody.symm.trans hbody')
  rw [signedLength_integrity] at hn
  split_ifs at hn
  exact (Except.ok.inj hn).symm

theorem prepare_of_missingMetadata {slot : Slot} {bodyName chainName : String} {body chain : Bytes}
    (hbody : slot.body.slice image = some body) (hchain : slot.chain.slice image = some chain)
    (fits : s.digestLength slot.id body ≤ body.length)
    (missing : s.payload.metadataHash (body.take (s.digestLength slot.id body)) s.primitives = none) :
    s.prepare image slot bodyName chainName true = .error (.policy (.missingMetadata bodyName)) := by
  have refused : s.checkedMetadata bodyName (body.take (s.digestLength slot.id body))
      = .error (.policy (.missingMetadata bodyName)) := by
    unfold checkedMetadata
    rw [missing]
    rfl
  unfold prepare
  simp only [hbody, hchain, signedLength_integrity, if_neg (not_lt.2 fits), ↓reduceIte]
  show (some <$> s.checkedMetadata bodyName _ >>= _) = _
  rw [refused]
  rfl

theorem integrityIn_of_required (required : s.options.integrity = .required) :
    s.integrityIn layout image = true := by
  unfold integrityIn integrityMode
  rw [required]

/-- The first body without metadata ends a signing, with the image as it was. -/
theorem sign_of_missingMetadata {before after : List Slot} {slot : Slot} {body chain : Bytes}
    (required : s.options.integrity = .required)
    (located : locateSlots layout layout.ids true = .ok (before ++ slot :: after))
    (earlier : ∀ other ∈ before, ∃ built, s.build layout image true other = .ok built)
    (hbody : slot.body.slice image = some body) (hchain : slot.chain.slice image = some chain)
    (fits : s.digestLength slot.id body ≤ body.length)
    (missing : s.payload.metadataHash (body.take (s.digestLength slot.id body)) s.primitives = none) :
    s.sign layout image = .error (.inArea (layout.chainName slot.id)
      (.policy (.missingMetadata (layout.bodyName slot.id)))) image := by
  have mode : ∀ bodies, s.integrityMode bodies = true := by
    intro bodies
    unfold integrityMode
    rw [required]
  have refused : s.build layout image true slot = .error (.inArea (layout.chainName slot.id)
      (.policy (.missingMetadata (layout.bodyName slot.id)))) := by
    unfold build
    rw [prepare_of_missingMetadata hbody hchain fits missing]
    rfl
  refine sign_of_plan_error ?_
  unfold plan
  rw [located]
  show (before ++ slot :: after).mapM (s.build layout image (s.integrityMode _)) = _
  rw [mode, mapM_eq_error_of_first earlier refused]

/-! ## Signed images -/

/-- A chain is written for every located slot, and each holds the digest of metadata that the body of
its slot carries and matches. -/
def WritesDigests (s : Signer) (layout : SlotLayout) (image image' : Bytes) : Prop :=
  ∃ chains : List (Slot × Bytes),
    image' = image.overwriteAll (chains.map fun built => (built.1.chain.offset, built.2)) ∧
    List.Forall₂ (fun slot built => built.1.chain = slot.chain ∧ ∃ body preamble,
        slot.body.slice image = some body ∧ s.digestLength slot.id body ≤ body.length ∧
        (∀ tail, TrustChain.parse (built.2 ++ tail) = .ok { keyblock := s.keyblock, preamble }) ∧
        preamble.bodySignature.DigestOf s.payload s.primitives
          (body.take (s.digestLength slot.id body)))
      (layout.ids.filterMap layout.locate) chains

/-- What is signed where metadata are required is signed with digests. -/
theorem sign_of_required {source : ChainSource} (made : source.keyblock = .ok s.keyblock)
    (required : s.options.integrity = .required) (layout : SlotLayout) (image : Bytes) :
    (∃ e, s.sign layout image = .error e image) ∨
    ∃ report image', s.sign layout image = .ok report image' ∧ s.WritesDigests layout image image' := by
  cases hplan : s.plan layout image with
  | error e => exact .inl ⟨e, sign_of_plan_error hplan⟩
  | ok chains =>
    obtain ⟨report, signed, -⟩ := sign_of_plan hplan
    refine .inr ⟨report, _, signed, chains, rfl, ?_⟩
    have located := (List.forall₂_and_left _ _).2 ⟨fun slot hs => hs, builtFrom_of_plan hplan⟩
    refine located.imp ?_
    rintro slot built ⟨hs, hbuilt⟩
    obtain ⟨-, body, preamble, hbody, fits, chain, signedAs⟩ :=
      hbuilt.signedChain_signedAs (blank_of_mem_located hs)
    have prepared := hbuilt.prepared
    rw [integrityIn_of_required required] at signedAs prepared
    rw [bodyLength_of_prepare prepared hbody] at fits signedAs
    exact ⟨hbuilt.area, body, preamble, hbody, fits,
      fun tail => chain.parse made (List.prefix_append _ _), signedAs⟩

end Signer

namespace KernelImage
variable {s : Signer} {bytes : Bytes} {k : KernelImage}

/-! ## Kernels -/

/-- The one slot of a kernel with a header and a body that are not empty. -/
def slot (k : KernelImage) : Slot :=
  .ofAreas .a ⟨k.headerSize.toNat, k.bodySize.toNat⟩ ⟨leadSize, k.headerSize.toNat - leadSize⟩

theorem locateSlots_layout (header : leadSize < k.headerSize.toNat) (body : 0 < k.bodySize.toNat) :
    Signer.locateSlots k.layout k.layout.ids true = .ok [k.slot] := by
  have hbody : k.layout.presentBody .a = some ⟨k.headerSize.toNat, k.bodySize.toNat⟩ := by
    refine Option.filter_eq_some_iff.2 ⟨rfl, ?_⟩
    simp only [Area.isEmpty, Bool.not_eq_true', beq_eq_false_iff_ne]
    omega
  have hchain : k.layout.presentChain .a = some ⟨leadSize, k.headerSize.toNat - leadSize⟩ := by
    refine Option.filter_eq_some_iff.2 ⟨rfl, ?_⟩
    simp only [Area.isEmpty, Bool.not_eq_true', beq_eq_false_iff_ne]
    omega
  show Signer.locateSlots k.layout [.a] true = _
  unfold Signer.locateSlots
  rw [hbody, hchain]
  rfl

theorem slice_slot (h : parse bytes = .ok k) :
    k.slot.body.slice bytes = some k.body ∧ k.slot.chain.slice bytes = some k.chainArea := by
  obtain ⟨-, room, fits, rfl⟩ := parse_eq_ok_iff.1 h
  constructor
  · refine Bytes.slice_eq_some.2 ⟨fits, ?_⟩
    simp only [body, Bytes.between, Nat.add_sub_cancel_left]
    rfl
  · refine Bytes.slice_eq_some.2 ⟨?_, rfl⟩
    show leadSize + (k.headerSize.toNat - leadSize) ≤ k.bytes.length
    omega

theorem resign_of_parse (h : parse bytes = .ok k) : resign bytes s =
    match s.sign k.layout bytes with
    | .ok _ signed => .ok signed
    | .error e _ => .error e := by
  unfold resign
  rw [h]
  rfl

/-- A new kernel has a signature of its body, whatever its signer asks of metadata. -/
theorem classical_of_sign {source : ChainSource} {body image : Bytes} {padding : Nat}
    (made : source.keyblock = .ok s.keyblock) (h : sign body s padding = .ok image) :
    ∃ k preamble, parse image = .ok k ∧ k.body = body ∧
      TrustChain.parse k.chainArea = .ok { keyblock := s.keyblock, preamble } ∧
      preamble.bodySignature.MadeBy s.dataKey body := by
  obtain ⟨chain, hchain, assembled⟩ := sign_eq_ok.1 h
  obtain ⟨k, parsed, -, hbody, area⟩ := parse_of_assemble assembled []
  obtain ⟨preamble, signed, signedAs⟩ := Signer.signedChain_of_chainFor hchain fun found hf => by cases hf
  rw [List.append_nil] at parsed
  refine ⟨k, preamble, parsed, hbody, signed.parse made ?_, signedAs⟩
  rw [area]
  exact List.prefix_append _ _

end KernelImage

namespace Signer
variable {s : Signer}

/-! ## What is required -/

/-- Where metadata are required, every slot of a layout, of a firmware image and of a kernel that is
signed again gets the digest of metadata that its body carries and matches, or nothing is signed; a
body without metadata is refused by name. A new kernel gets a signature of its body all the same. -/
theorem required_digests_except_new_kernels {source : ChainSource} {dataKey : SigningKey}
    {options : SignOptions} {primitives : TrustPrimitives} {payload : PayloadFormat}
    (made : make source dataKey options primitives payload = .ok s)
    (required : options.integrity = .required) :
    (∀ layout image, (∃ e, s.sign layout image = .error e image) ∨
      ∃ report image', s.sign layout image = .ok report image' ∧
        s.WritesDigests layout image image') ∧
    (∀ layout image before slot after body chain,
      locateSlots layout layout.ids true = .ok (before ++ slot :: after) →
      (∀ other ∈ before, ∃ built, s.build layout image true other = .ok built) →
      slot.body.slice image = some body → slot.chain.slice image = some chain →
      s.digestLength slot.id body ≤ body.length →
      payload.metadataHash (body.take (s.digestLength slot.id body)) primitives = none →
      s.sign layout image = .error (.inArea (layout.chainName slot.id)
        (.policy (.missingMetadata (layout.bodyName slot.id)))) image) ∧
    (∀ image, (∃ e, FirmwareImage.sign s image = .error e image) ∨
      ∃ f report image', FirmwareImage.parse image = .ok f ∧
        FirmwareImage.sign s image = .ok report image' ∧ s.WritesDigests f.layout image image') ∧
    (∀ image, (∃ e, KernelImage.resign image s = .error e) ∨
      ∃ k image', KernelImage.parse image = .ok k ∧ KernelImage.resign image s = .ok image' ∧
        s.WritesDigests k.layout image image') ∧
    (∀ image k, KernelImage.parse image = .ok k → 16 < k.headerSize.toNat →
      0 < k.bodySize.toNat → s.digestLength .a k.body ≤ k.body.length →
      payload.metadataHash (k.body.take (s.digestLength .a k.body)) primitives = none →
      KernelImage.resign image s
        = .error (.inArea "kernel vblock" (.policy (.missingMetadata "kernel body")))) ∧
    ∀ body padding image, KernelImage.sign body s padding = .ok image →
      ∃ k preamble, KernelImage.parse image = .ok k ∧ k.body = body ∧
        TrustChain.parse k.chainArea = .ok { keyblock := s.keyblock, preamble } ∧
        preamble.bodySignature.MadeBy s.dataKey body := by
  obtain ⟨hk, -, rfl, rfl, rfl⟩ := make_ok made
  refine ⟨sign_of_required hk required, ?_, ?_, ?_, ?_, ?_⟩
  · intro layout image before slot after body chain located earlier hbody hchain fits missing
    exact sign_of_missingMetadata required located earlier hbody hchain fits missing
  · intro image
    cases parsed : FirmwareImage.parse image with
    | error e =>
      refine .inl ⟨e, ?_⟩
      unfold FirmwareImage.sign
      rw [run_get_bind, parsed]
      rfl
    | ok f =>
      rw [FirmwareImage.sign_of_parse parsed]
      rcases sign_of_required hk required f.layout image with failed | ⟨report, image', signed, digests⟩
      · exact .inl failed
      · exact .inr ⟨f, report, image', rfl, signed, digests⟩
  · intro image
    cases parsed : KernelImage.parse image with
    | error e =>
      refine .inl ⟨e, ?_⟩
      unfold KernelImage.resign
      rw [parsed]
      rfl
    | ok k =>
      rw [KernelImage.resign_of_parse parsed]
      rcases sign_of_required hk required k.layout image with ⟨e, failed⟩ | ⟨_, image', signed, digests⟩
      · rw [failed]
        exact .inl ⟨e, rfl⟩
      · rw [signed]
        exact .inr ⟨k, image', rfl, rfl, digests⟩
  · intro image k parsed header body fits missing
    obtain ⟨hbody, hchain⟩ := KernelImage.slice_slot parsed
    have located : locateSlots k.layout k.layout.ids true = .ok ([] ++ k.slot :: []) :=
      KernelImage.locateSlots_layout header body
    rw [KernelImage.resign_of_parse parsed,
      sign_of_missingMetadata required located nofun hbody hchain fits missing]
    rfl
  · intro body padding image signed
    exact KernelImage.classical_of_sign hk signed

/-- Requires metadata of indexed bodies. -/
def requiringSigner : Signer :=
  { indexedSigner with options := { indexedSigner.options with integrity := .required } }

theorem make_requiringSigner : make (.reuse TrustChain.sampleBytes) requiringSigner.dataKey
    requiringSigner.options requiringSigner.primitives .indexed = .ok requiringSigner :=
  make_reuse_sample _ _ _

theorem sign_requiringSigner : ∃ image, KernelImage.sign [1, 2, 3] requiringSigner 0 = .ok image := by
  have run : (KernelImage.sign [1, 2, 3] requiringSigner 0).map List.length = .ok 143 := by
    decide +kernel
  obtain ⟨image, signed, -⟩ := map_eq_ok.1 run
  exact ⟨image, signed⟩

/-- Two bodies with metadata are signed with digests, two bodies without are refused and left as they
are, and a new kernel is signed without metadata. -/
theorem digests_or_refused :
    (∃ report image', requiringSigner.sign indexedSlots indexedSlotImage = .ok report image' ∧
      requiringSigner.WritesDigests indexedSlots indexedSlotImage image') ∧
    requiringSigner.sign twoSlots twoSlotImage
      = .error (.inArea "chain" (.policy (.missingMetadata "body"))) twoSlotImage ∧
    ∃ image k preamble, KernelImage.sign [1, 2, 3] requiringSigner 0 = .ok image ∧
      KernelImage.parse image = .ok k ∧
      TrustChain.parse k.chainArea = .ok { keyblock := requiringSigner.keyblock, preamble } ∧
      preamble.bodySignature.MadeBy requiringSigner.dataKey [1, 2, 3] := by
  have required : requiringSigner.options.integrity = .required := rfl
  obtain ⟨layouts, refused, -, -, -, kernels⟩ :=
    required_digests_except_new_kernels make_requiringSigner required
  refine ⟨?_, ?_, ?_⟩
  · have run : ((requiringSigner.sign indexedSlots).run' indexedSlotImage).isSome = true := by
      decide +kernel
    rcases layouts indexedSlots indexedSlotImage with ⟨e, failed⟩ | signed
    · obtain ⟨report, hreport⟩ := Option.isSome_iff_exists.1 run
      obtain ⟨_, _, signed, -⟩ := run'_map_eq_some.1 (congrArg (Option.map id) hreport)
      rw [failed] at signed
      cases signed
    · exact signed
  · exact refused twoSlots twoSlotImage [] (.ofAreas .a ⟨126, 4⟩ ⟨0, 126⟩)
      [.ofAreas .b ⟨256, 4⟩ ⟨130, 126⟩] [1, 2, 3, 4] (List.replicate 126 0xff) rfl nofun
      (by decide +kernel) (by decide +kernel) (by decide) (by decide)
  · obtain ⟨image, signed⟩ := sign_requiringSigner
    obtain ⟨k, preamble, parsed, -, chain, made⟩ := kernels [1, 2, 3] 0 image signed
    exact ⟨image, k, preamble, signed, parsed, chain, made⟩

/-- A kernel body without metadata is signed by a signer that requires them, with a signature of the
body. The same signer refuses to sign the kernel again. -/
theorem new_kernel_without_required_digest : requiringSigner.options.integrity = .required ∧
    requiringSigner.payload.metadataHash [1, 2, 3] requiringSigner.primitives = none ∧
    ∃ image k preamble, KernelImage.sign [1, 2, 3] requiringSigner 0 = .ok image ∧
      KernelImage.parse image = .ok k ∧
      TrustChain.parse k.chainArea = .ok { keyblock := requiringSigner.keyblock, preamble } ∧
      preamble.bodySignature.kind = .classical ∧ preamble.bodySignature.kind ≠ .digest ∧
      KernelImage.resign image requiringSigner
        = .error (.inArea "kernel vblock" (.policy (.missingMetadata "kernel body"))) := by
  obtain ⟨image, signed⟩ := sign_requiringSigner
  obtain ⟨hk, -⟩ := make_ok make_requiringSigner
  obtain ⟨k, preamble, parsed, -, chain, made⟩ := KernelImage.classical_of_sign hk signed
  have again : (KernelImage.sign [1, 2, 3] requiringSigner 0 >>= fun image =>
      KernelImage.resign image requiringSigner)
        = .error (.inArea "kernel vblock" (.policy (.missingMetadata "kernel body"))) := by
    decide +kernel
  rw [signed] at again
  refine ⟨rfl, rfl, image, k, preamble, signed, parsed, chain, made.kind, ?_, again⟩
  rw [made.kind]
  nofun

end Signer
end VerifiedBoot
