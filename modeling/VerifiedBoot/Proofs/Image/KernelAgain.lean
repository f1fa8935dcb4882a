/-
Kernels that are signed again. A new kernel is made from what its signer asks for, a kernel that is
signed again also from what the chain in place says, and both have the same chain where they agree.
Signing again writes the new chain over the old one and nothing else: the lead, what the header has
behind the chain, the body and what follows it stay as they are.
-/
import VerifiedBoot.Proofs.Signing.Inherited
import VerifiedBoot.Proofs.Signing.Required

namespace VerifiedBoot

/-! ## Chains in place -/

/-- A chain that primitives accept by its own data key. -/
structure TrustChain.Intact (c : TrustChain) (primitives : TrustPrimitives) : Prop where
  usable : primitives.checkKey c.keyblock.dataKey = .ok ()
  signed : c.preamble.verifySignature c.keyblock.dataKey primitives = .ok ()

/-- A chain that a signer puts in the place of another one, for a raw body. It is of the signer and signs
the whole body. What is not asked for it has from a chain that is intact to the signer, and is a default
otherwise. -/
structure TrustChain.Renews (c' c : TrustChain) (s : Signer) (body : Bytes) : Prop where
  keyblock : c'.keyblock = s.keyblock
  signed : c'.preamble.bodySignature.MadeBy s.dataKey body
  inherited : c.Intact s.primitives →
    c'.preamble.version = s.options.version.getD c.preamble.version ∧
    c'.preamble.flags = s.options.flags.getD c.preamble.flags
  defaults : ¬ c.Intact s.primitives →
    c'.preamble.version = s.options.version.getD 1 ∧ c'.preamble.flags = s.options.flags.getD 0

/-- A chain whose body has room is found in place just if it is intact. -/
theorem ExistingChain.inspect_cases {area : Bytes} {size : Nat} {c : TrustChain}
    (primitives : TrustPrimitives) (parsed : TrustChain.parse area = .ok c)
    (room : c.preamble.bodyLength ≤ size) :
    (c.Intact primitives ∧ inspect area size primitives
      = some ⟨c.preamble.version, c.preamble.flags, c.preamble.bodyLength⟩) ∨
    (¬ c.Intact primitives ∧ inspect area size primitives = none) := by
  by_cases intact : c.Intact primitives
  · exact .inl ⟨intact, inspect_of_parse parsed intact.usable intact.signed room⟩
  · refine .inr ⟨intact, Option.eq_none_iff_forall_ne_some.2 fun existing found => intact ?_⟩
    obtain ⟨hk, hp⟩ := TrustChain.parse_eq_ok.1 parsed
    simp only [inspect, Option.bind_eq_bind, Option.bind_eq_some_iff, Option.guard_eq_some', isOk_iff,
      toOption_eq_some] at found
    obtain ⟨k, hk', -, usable, p, hp', -, signed, -⟩ := found
    obtain rfl := Except.ok.inj (hk.symm.trans hk')
    obtain rfl := Except.ok.inj (hp.symm.trans hp')
    exact ⟨usable, signed⟩

/-- All of a body is signed, by a chain in place for all of it or for want of one. -/
theorem ExistingChain.elim_bodyLength {area : Bytes} {size : Nat} {c : TrustChain}
    (primitives : TrustPrimitives) (parsed : TrustChain.parse area = .ok c)
    (whole : c.preamble.bodyLength = size) :
    (inspect area size primitives).elim size (·.bodyLength) = size := by
  rcases inspect_cases primitives parsed whole.le with ⟨-, found⟩ | ⟨-, nothing⟩
  · rw [found]
    exact whole
  · rw [nothing]
    rfl

/-- A raw body has no say in its length. -/
theorem Signer.statedLength_of_raw {s : Signer} {id : SlotId} (raw : s.payload = .raw)
    (noLength : s.options.bodyLength id = none) (body : Bytes) : s.statedLength id body = none := by
  unfold statedLength
  rw [noLength, raw]
  rfl

/-- A raw body has no metadata, so that what vouches for it is a signature of the data key. -/
theorem Signer.Vouches.madeBy_of_raw {s : Signer} {signed : Bytes} {signature : Signature}
    (h : s.Vouches signed signature) (raw : s.payload = .raw) : signature.MadeBy s.dataKey signed := by
  cases h with
  | classical made => exact made
  | digest hash _ _ _ found _ =>
    rw [raw] at found
    cases found

namespace KernelImage
variable {s : Signer} {bytes again : Bytes} {k : KernelImage}

/-! ## The slot of a kernel -/

theorem locate_layout (header : leadSize < k.headerSize.toNat) (body : 0 < k.bodySize.toNat) :
    k.layout.locate .a = some k.slot := by
  have located := Signer.locateSlots_ok (locateSlots_layout header body)
  obtain ⟨id, hid, hl⟩ := List.mem_filterMap.1 (located ▸ List.mem_singleton.2 rfl)
  obtain rfl := List.mem_singleton.1 hid
  exact hl

theorem chainsApart_layout (header : leadSize < k.headerSize.toNat) (body : 0 < k.bodySize.toNat) :
    k.layout.ChainsApart := by
  intro id hid id' hid' slot slot' hl hl'
  obtain rfl := List.mem_singleton.1 hid
  obtain rfl := List.mem_singleton.1 hid'
  obtain rfl := Option.some.inj (hl.symm.trans (locate_layout header body))
  obtain rfl := Option.some.inj (hl'.symm.trans (locate_layout header body))
  refine ⟨Area.disjoint_of_le (.inl ?_), fun differ => absurd rfl differ⟩
  show leadSize + (k.headerSize.toNat - leadSize) ≤ k.headerSize.toNat
  omega

theorem length_body (h : parse bytes = .ok k) : k.body.length = k.bodySize.toNat :=
  Bytes.length_slice (slice_slot h).1

/-! ## Signing again -/

theorem resign_eq_ok (h : parse bytes = .ok k) :
    resign bytes s = .ok again ↔ ∃ report, s.sign k.layout bytes = .ok report again := by
  rw [resign_of_parse h]
  cases s.sign k.layout bytes <;> simp

/-- A kernel that is signed again keeps its lead, and all from the end of its header on. -/
theorem frame_of_sign {report : SignReport} (h : parse bytes = .ok k)
    (signed : s.sign k.layout bytes = .ok report again) :
    again.length = bytes.length ∧ again.take leadSize = bytes.take leadSize ∧
      again.drop k.headerSize.toNat = bytes.drop k.headerSize.toNat := by
  obtain ⟨-, room, fits, -⟩ := parse_eq_ok_iff.1 h
  obtain ⟨chains, hplan, writes, rfl, -⟩ := Signer.sign_ok signed
  have length := Bytes.length_overwriteAll (Signer.writes_fit writes)
  -- the trust chain area ends with the header, and starts with it if it has no bytes
  have kept {a : Area} (apart : a.offset + a.length ≤ leadSize ∨ k.headerSize.toNat ≤ a.offset) :
      a.slice (bytes.overwriteAll (chains.map Signer.writeOf)) = a.slice bytes := by
    refine Signer.slice_of_sign signed fun id hid slot hl => Area.disjoint_of_le ?_
    obtain rfl := List.mem_singleton.1 hid
    obtain ⟨chain, hchain, body, -, rfl⟩ := SlotLayout.locate_eq_some.1 hl
    obtain rfl := Option.some.inj (Option.filter_eq_some_iff.1 hchain).1
    show leadSize + (k.headerSize.toNat - leadSize) ≤ a.offset ∨ a.offset + a.length ≤ leadSize
    omega
  refine ⟨length, ?_, ?_⟩
  · have whole : (Area.mk 0 leadSize).slice bytes = some (bytes.take leadSize) :=
      Bytes.slice_eq_some.2 ⟨by dsimp only; omega, rfl⟩
    have lead := (kept (.inl (Nat.zero_add leadSize).le)).trans whole
    exact (Bytes.slice_eq_some.1 lead).2
  · have whole : (Area.mk k.headerSize.toNat (bytes.length - k.headerSize.toNat)).slice bytes
        = some (bytes.drop k.headerSize.toNat) := by
      refine Bytes.slice_eq_some.2 ⟨by dsimp only; omega, List.take_of_length_le ?_⟩
      rw [List.length_drop]
    have rest := (Bytes.slice_eq_some.1 ((kept (.inr le_rfl)).trans whole)).2
    rw [List.take_of_length_le] at rest
    · exact rest
    · rw [List.length_drop, length]

/-- A kernel that is signed again is read with the sizes and the body that it had. -/
theorem parse_of_sign {report : SignReport} (h : parse bytes = .ok k)
    (signed : s.sign k.layout bytes = .ok report again) :
    parse again = .ok { k with bytes := again } ∧
      ({ k with bytes := again } : KernelImage).body = k.body := by
  obtain ⟨length, lead, rest⟩ := frame_of_sign h signed
  obtain ⟨start, room, fits, rfl⟩ := parse_eq_ok_iff.1 h
  constructor
  · refine parse_eq_ok_iff.2 ⟨?_, room, length ▸ fits, rfl⟩
    have same := List.prefix_iff_eq_take.1 start
    rw [length_leadBytes, ← lead] at same
    show leadBytes k.headerSize k.bodySize <+: again
    rw [same]
    exact List.take_prefix _ _
  · unfold body Bytes.between
    rw [rest]

/-- A chain for the whole raw body of a kernel is renewed when the kernel is signed again. -/
theorem chain_of_sign {source : ChainSource} {c : TrustChain} {report : SignReport}
    (made : source.keyblock = .ok s.keyblock) (raw : s.payload = .raw)
    (noLength : s.options.bodyLength .a = none) (h : parse bytes = .ok k)
    (header : leadSize < k.headerSize.toNat) (body : 0 < k.bodySize.toNat)
    (parsed : TrustChain.parse k.chainArea = .ok c) (whole : c.preamble.bodyLength = k.body.length)
    (signed : s.sign k.layout bytes = .ok report again) :
    ∃ c', TrustChain.parse ({ k with bytes := again } : KernelImage).chainArea = .ok c' ∧
      c'.Renews c s k.body := by
  have located := locate_layout header body
  obtain ⟨entry, he, hid⟩ :=
    Signer.exists_mem_report_of_locate signed (List.mem_singleton.2 rfl) located
  rw [← hid] at located
  obtain ⟨hbody, hchain⟩ := slice_slot h
  have decided := Signer.decided_of_mem_report signed he located hchain hbody
  obtain ⟨area, c', harea, parsed', carried⟩ := Signer.carried_of_mem_report made signed
    (chainsApart_layout header body) he located hbody
  obtain rfl := Option.some.inj (harea.symm.trans (slice_slot (parse_of_sign h signed).1).2)
  have length : entry.bodyLength = k.body.length := by
    rw [decided.bodyLength, hid, Signer.statedLength_of_raw raw noLength, Option.getD_none]
    split_ifs
    · rfl
    · exact ExistingChain.elim_bodyLength s.primitives parsed whole
  have vouches := carried.vouches
  rw [length, List.take_length] at vouches
  have madeBy := vouches.madeBy_of_raw raw
  rcases ExistingChain.inspect_cases s.primitives parsed whole.le with ⟨intact, found⟩ | ⟨broken, nothing⟩
  · refine ⟨c', parsed', carried.keyblock, madeBy, fun _ => ?_, fun broken => absurd intact broken⟩
    rw [carried.version, carried.flags, decided.version, decided.flags, found]
    exact ⟨getD_orElse_some _ _ _, getD_orElse_some _ _ _⟩
  · refine ⟨c', parsed', carried.keyblock, madeBy, fun intact => absurd intact broken, fun _ => ?_⟩
    rw [carried.version, carried.flags, decided.version, decided.flags, nothing]
    simp

/-! ## New kernels -/

/-- A new kernel with a body is read, whatever follows it, with the chain for this body at the start of
its header. -/
theorem new_of_sign {body image : Bytes} {padding : Nat} (nonempty : body ≠ [])
    (signed : sign body s padding = .ok image) (tail : Bytes) :
    ∃ k preamble chain, parse (image ++ tail) = .ok k ∧ k.body = body ∧
      leadSize < k.headerSize.toNat ∧ 0 < k.bodySize.toNat ∧ chainFor s body = .ok chain ∧
      chain <+: k.chainArea ∧
      s.SignedChain body (s.options.version.getD 1) (s.options.flags.getD 0) preamble chain := by
  obtain ⟨chain, hchain, assembled⟩ := sign_eq_ok.1 signed
  obtain ⟨k, parsed, header, hbody, area⟩ := parse_of_assemble assembled tail
  obtain ⟨room, -⟩ := assemble_eq_ok.1 assembled
  obtain ⟨preamble, signedChain, -⟩ := Signer.signedChain_of_chainFor hchain fun _ hf => by cases hf
  refine ⟨k, preamble, chain, parsed, hbody, ?_, ?_, hchain, ?_, signedChain⟩
  · obtain ⟨capacity, encoded⟩ := signedChain.encoded
    have length := TrustChain.length_encode encoded
    have positive := Preamble.minSize_le_byteLength preamble
    unfold Preamble.minSize at positive
    unfold TrustChain.byteLength at length
    dsimp only at length
    omega
  · rw [← length_body parsed, hbody]
    exact List.length_pos_iff.2 nonempty
  · rw [area]
    exact List.prefix_append _ _

/-- The slot of a kernel as it is decided for a new one. -/
def newSlot (k : KernelImage) (s : Signer) : Slot :=
  { k.slot with
    version := s.options.version.getD 1
    flags := s.options.flags.getD 0
    bodyLength := k.body.length }

/-- The signer of a new kernel that signs it again finds its own chain in place, or none that it accepts,
and decides the same as before. -/
theorem prepare_new {c : TrustChain} (raw : s.payload = .raw) (noLength : s.options.bodyLength .a = none)
    (h : parse bytes = .ok k) (parsed : TrustChain.parse k.chainArea = .ok c)
    (version : c.preamble.version = s.options.version.getD 1)
    (flags : c.preamble.flags = s.options.flags.getD 0)
    (whole : c.preamble.bodyLength = k.body.length) (bodyName chainName : String) :
    s.prepare bytes k.slot bodyName chainName false = .ok (k.newSlot s) := by
  obtain ⟨hbody, hchain⟩ := slice_slot h
  have again {α : Type} (asked : Option α) (default : α) :
      (asked <|> some (asked.getD default)).getD default = asked.getD default := by
    cases asked <;> rfl
  refine Signer.prepare_eq_ok.2 ⟨_, hbody, _, hchain, k.body.length, ?_, none, rfl, ?_⟩
  · have stated : s.statedLength k.slot.id k.body = none := Signer.statedLength_of_raw raw noLength _
    unfold Signer.signedLength
    rw [stated]
    exact congrArg Except.ok (ExistingChain.elim_bodyLength s.primitives parsed whole)
  · rcases ExistingChain.inspect_cases s.primitives parsed whole.le with ⟨-, found⟩ | ⟨-, nothing⟩
    · rw [found, version, flags]
      simp only [Option.map_some, again]
      rfl
    · rw [nothing]
      simp only [Option.map_none, Option.orElse_eq_orElse, Option.orElse_eq_or, Option.or_none]
      rfl

/-- The signer of a new kernel that signs it again writes the chain that is there. -/
theorem resign_new {source : ChainSource} {body image : Bytes} {padding : Nat}
    (made : source.keyblock = .ok s.keyblock) (raw : s.payload = .raw)
    (noLength : s.options.bodyLength .a = none) (notRequired : s.options.integrity ≠ .required)
    (nonempty : body ≠ []) (signed : sign body s padding = .ok image) (tail : Bytes) :
    resign (image ++ tail) s = .ok (image ++ tail) := by
  obtain ⟨k, preamble, chain, parsed, rfl, header, bodySize, hchain, start, signedChain⟩ :=
    new_of_sign nonempty signed tail
  obtain ⟨version, flags, -⟩ := signedChain.fields
  obtain ⟨hbody, harea⟩ := slice_slot parsed
  have prepared := prepare_new raw noLength parsed (signedChain.parse made start) version flags
    signedChain.length bodyName chainName
  have inside : chain.length ≤ k.slot.chain.length := Bytes.length_slice harea ▸ start.length_le
  -- the chain has room in the header, though it was built without a bound
  have built : s.build k.layout (image ++ tail) false k.slot = .ok (k.newSlot s, chain) := by
    simp only [Signer.build, mapError_ok_iff, bind_eq_ok, pure_eq_ok]
    refine ⟨_, prepared, chain, ?_, rfl⟩
    have signedBody := Signer.signedBody_of_prepare prepared hbody
    rw [show (k.newSlot s).bodyLength = k.body.length from rfl, List.take_length] at signedBody
    simp only [Signer.chainOf, signedBody]
    obtain ⟨signature, hsignature, p, hp, encoded⟩ := Signer.chainFor_eq_ok.1 hchain
    exact Signer.chainFor_eq_ok.2 ⟨signature, hsignature, p, hp,
      (TrustChain.encode_eq_ok_iff_of_ok encoded).2 ⟨rfl, inside⟩⟩
  have planned : s.plan k.layout (image ++ tail) = .ok [(k.newSlot s, chain)] := by
    simp only [Signer.plan, bind_eq_ok]
    refine ⟨_, locateSlots_layout header bodySize, ?_⟩
    rw [Signer.integrityMode_of_raw raw notRequired, mapM_eq_ok_iff]
    exact congrArg (· :: []) built
  obtain ⟨report, written, -⟩ := Signer.sign_of_plan planned
  refine (resign_eq_ok parsed).2 ⟨report, ?_⟩
  rw [written, Bytes.overwriteAll_of_in_place]
  intro w hw
  obtain rfl := List.mem_singleton.1 hw
  show (image ++ tail).slice k.slot.chain.offset chain.length = some chain
  rw [Bytes.slice_take harea inside, List.prefix_iff_eq_take.1 start |>.symm]

/-! ## Signing a new kernel again -/

/-- A new kernel, with whatever follows it, keeps its length, its lead and all from the end of its header
on when it is signed again, and the chain is renewed for the whole body. The same signer leaves every
byte as it is. -/
theorem resign_keeps_all_but_chain {s₁ s₂ : Signer} {source₁ source₂ : ChainSource}
    {dataKey₁ dataKey₂ : SigningKey} {options₁ options₂ : SignOptions}
    {primitives₁ primitives₂ : TrustPrimitives} {payload₁ : PayloadFormat} {body image : Bytes}
    {padding : Nat} (made₁ : Signer.make source₁ dataKey₁ options₁ primitives₁ payload₁ = .ok s₁)
    (made₂ : Signer.make source₂ dataKey₂ options₂ primitives₂ .raw = .ok s₂)
    (noLength : options₂.bodyLength .a = none) (nonempty : body ≠ [])
    (signed : sign body s₁ padding = .ok image) (tail : Bytes) :
    ∃ k c, parse (image ++ tail) = .ok k ∧ k.body = body ∧ TrustChain.parse k.chainArea = .ok c ∧
      c.keyblock = s₁.keyblock ∧ c.preamble.version = options₁.version.getD 1 ∧
      c.preamble.flags = options₁.flags.getD 0 ∧
      (∀ again, resign (image ++ tail) s₂ = .ok again →
        again.length = (image ++ tail).length ∧ again.take 16 = (image ++ tail).take 16 ∧
        again.drop k.headerSize.toNat = (image ++ tail).drop k.headerSize.toNat ∧
        ∃ k' c', parse again = .ok k' ∧ k'.headerSize = k.headerSize ∧ k'.body = body ∧
          TrustChain.parse k'.chainArea = .ok c' ∧ c'.Renews c s₂ body) ∧
      (s₂ = s₁ → options₂.integrity ≠ .required →
        resign (image ++ tail) s₂ = .ok (image ++ tail)) := by
  obtain ⟨hk₁, -, rfl, -, -⟩ := Signer.make_ok made₁
  obtain ⟨hk₂, -, rfl, rfl, raw⟩ := Signer.make_ok made₂
  obtain ⟨k, preamble, chain, parsed, rfl, header, bodySize, -, start, signedChain⟩ :=
    new_of_sign nonempty signed tail
  obtain ⟨version, flags, -⟩ := signedChain.fields
  have hchain := signedChain.parse hk₁ start
  refine ⟨k, _, parsed, rfl, hchain, rfl, version, flags, ?_, ?_⟩
  · intro again resigned
    obtain ⟨report, written⟩ := (resign_eq_ok parsed).1 resigned
    obtain ⟨length, lead, rest⟩ := frame_of_sign parsed written
    obtain ⟨parsed', sameBody⟩ := parse_of_sign parsed written
    obtain ⟨c', hchain', renews⟩ := chain_of_sign hk₂ raw noLength parsed header bodySize hchain
      signedChain.length written
    exact ⟨length, lead, rest, _, c', parsed', rfl, sameBody, hchain', renews⟩
  · rintro rfl notRequired
    exact resign_new hk₂ raw noLength notRequired nonempty signed tail

/-- A kernel of the sample signer, with version 7 and a header of 200 bytes. -/
def sampleKernel : Bytes := (sign [1, 2, 3] Signer.sampleSigner 200).toOption.getD []

/-- Asks for nothing, and can use no key. -/
def doubtingSigner : Signer :=
  { Signer.inheritingSigner with
    primitives := { Signer.inheritingSigner.primitives with
      checkKey := fun _ => .error .invalidSignature } }

theorem make_doubtingSigner : Signer.make (.reuse TrustChain.sampleBytes) doubtingSigner.dataKey .none
    doubtingSigner.primitives .raw = .ok doubtingSigner :=
  Signer.make_reuse_sample _ _ _

theorem sign_sampleKernel : sign [1, 2, 3] Signer.sampleSigner 200 = .ok sampleKernel := by
  have run : (sign [1, 2, 3] Signer.sampleSigner 200).toOption.isSome = true := by decide +kernel
  obtain ⟨image, h⟩ := Option.isSome_iff_exists.1 run
  rw [sampleKernel, h]
  exact toOption_eq_some.1 h

/-- The sample kernel, with two bytes behind it, is signed again by a signer that asks for nothing and
accepts its chain, by one that does not, and by its own. -/
theorem sample_kernel_signed_again :
    (∃ again k c, resign (sampleKernel ++ [9, 9]) Signer.inheritingSigner = .ok again ∧
      again.length = 205 ∧ again.drop 200 = [1, 2, 3, 9, 9] ∧ parse again = .ok k ∧
      TrustChain.parse k.chainArea = .ok c ∧ c.preamble.version = 7) ∧
    (∃ again k c, resign (sampleKernel ++ [9, 9]) doubtingSigner = .ok again ∧
      parse again = .ok k ∧ TrustChain.parse k.chainArea = .ok c ∧ c.preamble.version = 1) ∧
    resign (sampleKernel ++ [9, 9]) Signer.sampleSigner = .ok (sampleKernel ++ [9, 9]) := by
  have nonempty : ([1, 2, 3] : Bytes) ≠ [] := List.cons_ne_nil _ _
  refine ⟨?_, ?_, ?_⟩
  · obtain ⟨k, c, parsed, -, hchain, -, version, -, again, -⟩ := resign_keeps_all_but_chain
      Signer.make_sampleSigner Signer.make_inheritingSigner rfl nonempty sign_sampleKernel [9, 9]
    have read : (parse (sampleKernel ++ [9, 9])).toOption.bind (fun k =>
        (TrustChain.parse k.chainArea).toOption.map fun c => (k.headerSize.toNat,
          (c.preamble.verifySignature c.keyblock.dataKey Signer.inheritingSigner.primitives).isOk))
        = some (200, true) := by
      decide +kernel
    rw [toOption_eq_some.2 parsed, Option.bind_some, toOption_eq_some.2 hchain, Option.map_some,
      Option.some.injEq, Prod.mk.injEq, isOk_iff] at read
    obtain ⟨size, accepted⟩ := read
    have run : (resign (sampleKernel ++ [9, 9]) Signer.inheritingSigner).toOption.isSome = true := by
      decide +kernel
    obtain ⟨kernel, h⟩ := Option.isSome_iff_exists.1 run
    obtain ⟨length, -, rest, k', c', parsed', -, -, hchain', renews⟩ :=
      again kernel (toOption_eq_some.1 h)
    rw [size] at rest
    exact ⟨kernel, k', c', toOption_eq_some.1 h, length.trans (by decide +kernel),
      rest.trans (by decide +kernel), parsed', hchain',
      (renews.inherited ⟨rfl, accepted⟩).1.trans version⟩
  · obtain ⟨k, c, -, -, -, -, -, -, again, -⟩ := resign_keeps_all_but_chain
      Signer.make_sampleSigner make_doubtingSigner rfl nonempty sign_sampleKernel [9, 9]
    have refused : ¬ c.Intact doubtingSigner.primitives := by
      rintro ⟨usable, -⟩
      cases usable
    have run : (resign (sampleKernel ++ [9, 9]) doubtingSigner).toOption.isSome = true := by
      decide +kernel
    obtain ⟨kernel, h⟩ := Option.isSome_iff_exists.1 run
    obtain ⟨-, -, -, k', c', parsed', -, -, hchain', renews⟩ :=
      again kernel (toOption_eq_some.1 h)
    exact ⟨kernel, k', c', toOption_eq_some.1 h, parsed', hchain', (renews.defaults refused).1⟩
  · obtain ⟨k, c, -, -, -, -, -, -, -, same⟩ := resign_keeps_all_but_chain
      Signer.make_sampleSigner Signer.make_sampleSigner rfl nonempty sign_sampleKernel [9, 9]
    exact same rfl (by decide)

end KernelImage
end VerifiedBoot
