/-
What a signing decides before it writes. For each slot that is located, the signed length lies in
the body, and the chain is that of the signer's keyblock and of a preamble for exactly the signed
range: its signature is one that the data key made of that range, or holds the digest of metadata
that the range carries and matches.
-/
import VerifiedBoot.Proofs.Signing.Records
import VerifiedBoot.Proofs.Image.Parts

namespace VerifiedBoot

/-! ## Located slots -/

theorem SlotLayout.locate_eq_some {layout : SlotLayout} {id : SlotId} {slot : Slot} :
    layout.locate id = some slot ↔ ∃ chain, layout.presentChain id = some chain ∧
      ∃ body, layout.presentBody id = some body ∧ Slot.ofAreas id body chain = slot := by
  simp only [locate, Option.bind_eq_bind, Option.bind_eq_some_iff, Option.pure_def, Option.some.injEq]

/-- Nothing is known of a slot that has only been located. -/
theorem SlotLayout.blank_of_locate {layout : SlotLayout} {id : SlotId} {slot : Slot}
    (h : layout.locate id = some slot) : slot.id = id ∧ slot.metadataHash = none := by
  obtain ⟨_, -, _, -, rfl⟩ := locate_eq_some.1 h
  exact ⟨rfl, rfl⟩

/-- A slot is there with both of its areas, or its body is missing and it is not the first. -/
theorem Signer.locateSlots_cons {layout : SlotLayout} {id : SlotId} {ids : List SlotId} {isFirst : Bool}
    {slots : List Slot} (h : locateSlots layout (id :: ids) isFirst = .ok slots) :
    (∃ slot rest, layout.locate id = some slot ∧ locateSlots layout ids false = .ok rest ∧
      slots = slot :: rest) ∨
    (isFirst = false ∧ layout.presentBody id = none ∧ layout.locate id = none ∧
      locateSlots layout ids false = .ok slots) := by
  unfold locateSlots at h
  cases hb : layout.presentBody id with
  | none =>
    have missing : layout.locate id = none := by
      simp [SlotLayout.locate, hb]
    simp only [hb] at h
    split_ifs at h with first
    exact .inr ⟨Bool.eq_false_iff.2 first, rfl, missing, h⟩
  | some body =>
    cases hc : layout.presentChain id with
    | none => simp only [hb, hc] at h; cases h
    | some chain =>
      have located : layout.locate id = some (Slot.ofAreas id body chain) :=
        SlotLayout.locate_eq_some.2 ⟨chain, hc, body, hb, rfl⟩
      simp only [hb, hc, bind_eq_ok, pure_eq_ok] at h
      obtain ⟨rest, hr, rfl⟩ := h
      exact .inl ⟨_, rest, located, hr, rfl⟩

/-- The slots to sign are those that the layout locates. -/
theorem Signer.locateSlots_ok {layout : SlotLayout} {ids : List SlotId} {isFirst : Bool}
    {slots : List Slot} (h : locateSlots layout ids isFirst = .ok slots) :
    slots = ids.filterMap layout.locate := by
  induction ids generalizing isFirst slots with
  | nil => cases h; rfl
  | cons id ids ih =>
    rcases locateSlots_cons h with ⟨slot, rest, located, hr, rfl⟩ | ⟨-, -, missing, hr⟩
    · rw [List.filterMap_cons_some located, ih hr]
    · rw [List.filterMap_cons_none missing, ih hr]

/-- A slot that is passed over lacks its body. -/
theorem Signer.presentBody_of_locateSlots {layout : SlotLayout} {ids : List SlotId} {isFirst : Bool}
    {slots : List Slot} (h : locateSlots layout ids isFirst = .ok slots) {id : SlotId} (hid : id ∈ ids)
    (missing : layout.locate id = none) : layout.presentBody id = none := by
  induction ids generalizing isFirst slots with
  | nil => exact absurd hid List.not_mem_nil
  | cons first ids ih =>
    rcases locateSlots_cons h with ⟨slot, rest, located, hr, -⟩ | ⟨-, noBody, -, hr⟩
    · rcases List.mem_cons.1 hid with rfl | hid
      · rw [missing] at located
        cases located
      · exact ih hr hid
    · rcases List.mem_cons.1 hid with rfl | hid
      · exact noBody
      · exact ih hr hid

/-! ## Signed lengths -/

/-- The body of a chain in place has room in the body area. -/
theorem ExistingChain.bodyLength_le_of_inspect {area : Bytes} {size : Nat}
    {primitives : TrustPrimitives} {existing : ExistingChain}
    (h : inspect area size primitives = some existing) : existing.bodyLength ≤ size := by
  simp only [inspect, Option.bind_eq_bind, Option.bind_eq_some_iff, Option.guard_eq_some',
    Option.pure_def, Option.some.injEq] at h
  obtain ⟨-, -, -, -, p, -, -, -, -, hle, rfl⟩ := h
  exact hle

namespace Signer
variable {s : Signer}

/-- The signed length of a body is no more than the body has. -/
theorem signedLength_le {id : SlotId} {bodyName : String} {body : Bytes}
    {existing : Option ExistingChain} {integrity : Bool} {n : Nat}
    (h : s.signedLength id bodyName body existing integrity = .ok n)
    (room : ∀ e, existing = some e → e.bodyLength ≤ body.length) : n ≤ body.length := by
  unfold signedLength at h
  split at h
  · split_ifs at h with hlt
    cases h
    omega
  · split_ifs at h
    · cases h; exact le_rfl
    · cases existing with
      | none => cases h; exact le_rfl
      | some e => cases h; exact room e rfl

/-! ## Prepared slots -/

theorem checkedMetadata_ok {bodyName : String} {signed : Bytes} {hash : MetadataHash}
    (h : s.checkedMetadata bodyName signed = .ok hash) :
    s.payload.metadataHash signed s.primitives = some hash ∧
      s.payload.contentMatches signed s.primitives = true := by
  unfold checkedMetadata at h
  cases hm : s.payload.metadataHash signed s.primitives with
  | none => simp only [hm] at h; cases h
  | some found =>
    simp only [hm] at h
    split_ifs at h with hc
    cases h
    exact ⟨rfl, hc⟩

/-- All that is decided of a slot, and from what: its two areas, the chain in place in one of them, and
in integrity mode the metadata of the signed range. -/
theorem prepare_eq_ok {image : Bytes} {slot prepared : Slot} {bodyName chainName : String}
    {integrity : Bool} : s.prepare image slot bodyName chainName integrity = .ok prepared ↔
      ∃ body, slot.body.slice image = some body ∧ ∃ chain, slot.chain.slice image = some chain ∧
      ∃ n, s.signedLength slot.id bodyName body
          (ExistingChain.inspect chain body.length s.primitives) integrity = .ok n ∧
      ∃ hash, (if integrity then some <$> s.checkedMetadata bodyName (body.take n)
          else .ok slot.metadataHash) = .ok hash ∧
      { slot with
        version := (s.options.version <|>
          (ExistingChain.inspect chain body.length s.primitives).map (·.version)).getD 1
        flags := (s.options.flags <|>
          (ExistingChain.inspect chain body.length s.primitives).map (·.flags)).getD 0
        bodyLength := n
        metadataHash := hash } = prepared := by
  unfold prepare
  cases hb : slot.body.slice image with
  | none =>
    constructor
    · intro h; cases h
    · rintro ⟨_, h, -⟩; cases h
  | some body =>
    cases hc : slot.chain.slice image with
    | none =>
      constructor
      · intro h; cases h
      · rintro ⟨_, -, _, h, -⟩; cases h
    | some chain =>
      simp only [Option.some.injEq, exists_eq_left', bind_eq_ok]
      cases integrity with
      | true => simp only [↓reduceIte, bind_eq_ok, pure_eq_ok]
      | false => simp only [Bool.false_eq_true, ↓reduceIte, bind_eq_ok, pure_eq_ok, Except.ok.injEq]

/-- A slot is prepared where it is; both of its areas are in the image, the signed range lies in the
body, and a digest that will stand for it is that of metadata that it carries and matches. -/
theorem prepare_ok {image : Bytes} {slot prepared : Slot} {bodyName chainName : String}
    {integrity : Bool} (h : s.prepare image slot bodyName chainName integrity = .ok prepared) :
    (prepared.id = slot.id ∧ prepared.body = slot.body ∧ prepared.chain = slot.chain) ∧
    (∃ chain, slot.chain.slice image = some chain) ∧
    ∃ body, slot.body.slice image = some body ∧ prepared.bodyLength ≤ body.length ∧
      (prepared.metadataHash = slot.metadataHash ∨ ∃ hash, prepared.metadataHash = some hash ∧
        s.payload.metadataHash (body.take prepared.bodyLength) s.primitives = some hash ∧
        s.payload.contentMatches (body.take prepared.bodyLength) s.primitives = true) := by
  obtain ⟨body, hbody, chain, hchain, n, hn, hash, hhash, rfl⟩ := prepare_eq_ok.1 h
  have fits : n ≤ body.length :=
    signedLength_le hn fun e he => ExistingChain.bodyLength_le_of_inspect he
  refine ⟨⟨rfl, rfl, rfl⟩, ⟨chain, hchain⟩, body, hbody, fits, ?_⟩
  cases integrity with
  | true =>
    simp only [↓reduceIte, map_eq_ok] at hhash
    obtain ⟨found, hfound, rfl⟩ := hhash
    exact .inr ⟨found, rfl, checkedMetadata_ok hfound⟩
  | false => exact .inl (Except.ok.inj hhash).symm

/-- The signed range of a prepared slot is the start of its body. -/
theorem signedBody_of_prepare {image : Bytes} {slot prepared : Slot} {bodyName chainName : String}
    {integrity : Bool} {body : Bytes}
    (h : s.prepare image slot bodyName chainName integrity = .ok prepared)
    (hbody : slot.body.slice image = some body) :
    prepared.signedBody.slice image = some (body.take prepared.bodyLength) := by
  obtain ⟨⟨-, same, -⟩, -, body', hbody', fits, -⟩ := prepare_ok h
  obtain rfl := Option.some.inj (hbody.symm.trans hbody')
  have length : body.length = prepared.body.length := same ▸ Bytes.length_slice hbody
  unfold Slot.signedBody
  rw [Nat.min_eq_left (length ▸ fits)]
  rw [← same] at hbody
  exact Bytes.slice_take hbody (length ▸ fits)

/-! ## Chains -/

/-- A signature that stands for a range of a body: the data key made it of that range, or it holds
the digest of metadata that the range carries and matches. -/
inductive Vouches (s : Signer) (signed : Bytes) (signature : Signature) : Prop where
  | classical (made : signature.MadeBy s.dataKey signed)
  | digest (hash : MetadataHash) (kind : signature.kind = .digest)
      (algorithm : signature.algorithm = hash.algorithm.raw) (blob : signature.blob = hash.digest)
      (found : s.payload.metadataHash signed s.primitives = some hash)
      (valid : s.payload.contentMatches signed s.primitives = true)

/-- The body signature of a chain, by whether metadata are signed. -/
def SignedAs (s : Signer) (integrity : Bool) (signed : Bytes) (signature : Signature) : Prop :=
  if integrity then signature.DigestOf s.payload s.primitives signed
  else signature.MadeBy s.dataKey signed

theorem SignedAs.dataSize {integrity : Bool} {signed : Bytes} {signature : Signature}
    (h : s.SignedAs integrity signed signature) : signature.dataSize.toNat = signed.length := by
  cases integrity with
  | true => exact Signature.DigestOf.dataSize h
  | false => exact Signature.MadeBy.dataSize h

theorem SignedAs.vouches {integrity : Bool} {signed : Bytes} {signature : Signature}
    (h : s.SignedAs integrity signed signature) : s.Vouches signed signature := by
  cases integrity with
  | true =>
    have digest : signature.DigestOf s.payload s.primitives signed := h
    obtain ⟨hash, found, algorithm, blob⟩ := digest.hash
    exact .digest hash digest.kind algorithm blob found digest.matched
  | false => exact .classical h

/-- A metadata hash makes the signature a digest, and nothing else does. -/
theorem signedAs_of_bodySignature {signed : Bytes} {hash : Option MetadataHash} {signature : Signature}
    (h : s.bodySignature signed hash = .ok signature)
    (valid : ∀ found, hash = some found →
      s.payload.metadataHash signed s.primitives = some found ∧
        s.payload.contentMatches signed s.primitives = true) :
    s.SignedAs hash.isSome signed signature := by
  cases hash with
  | none =>
    simp only [bodySignature, bind_eq_ok, pure_eq_ok, liftCodec_eq_ok, liftTrust_eq_ok,
      toLength_eq_ok] at h
    obtain ⟨size, hsize, blob, hblob, rfl⟩ := h
    show Signature.MadeBy _ _ _
    exact ⟨rfl, rfl, hsize, hblob⟩
  | some found =>
    simp only [bodySignature, bind_eq_ok, pure_eq_ok, liftCodec_eq_ok, toLength_eq_ok] at h
    obtain ⟨size, hsize, rfl⟩ := h
    obtain ⟨hfound, matched⟩ := valid found rfl
    show Signature.DigestOf _ _ _ _
    exact ⟨rfl, hsize, ⟨found, hfound, rfl, rfl⟩, matched⟩

theorem chainFor_eq_ok {signed bs : Bytes} {hash : Option MetadataHash} {version : UInt16}
    {flags : UInt32} {capacity : Nat} :
    s.chainFor signed hash version flags capacity = .ok bs ↔
      ∃ signature, s.bodySignature signed hash = .ok signature ∧
        ∃ preamble, Preamble.create version flags signature s.options.subkey s.dataKey = .ok preamble ∧
          TrustChain.encode { keyblock := s.keyblock, preamble } capacity = .ok bs := by
  simp only [chainFor, bind_eq_ok, liftCodec_eq_ok]

/-- What a slot of an image is built into: itself with version, flags and signed length, and a chain
for the signed range of its body. -/
structure Built (s : Signer) (image : Bytes) (slot : Slot) (built : Slot × Bytes) : Prop where
  id : built.1.id = slot.id
  body : built.1.body = slot.body
  chain : built.1.chain = slot.chain
  chainThere : ∃ area, slot.chain.slice image = some area
  signed : ∃ body signature preamble, slot.body.slice image = some body ∧
    built.1.bodyLength ≤ body.length ∧
    signature.dataSize.toNat = built.1.bodyLength ∧
    s.Vouches (body.take built.1.bodyLength) signature ∧
    Preamble.create built.1.version built.1.flags signature s.options.subkey s.dataKey
      = .ok preamble ∧
    TrustChain.encode { keyblock := s.keyblock, preamble } slot.chain.length = .ok built.2

/-- Building a slot that was located, before anything is known of its metadata. -/
theorem build_ok {layout : SlotLayout} {image : Bytes} {integrity : Bool} {slot : Slot}
    {built : Slot × Bytes} (h : s.build layout image integrity slot = .ok built)
    (blank : slot.metadataHash = none) : s.Built image slot built := by
  simp only [build, mapError_ok_iff, bind_eq_ok, pure_eq_ok] at h
  obtain ⟨prepared, hp, bs, hbs, rfl⟩ := h
  obtain ⟨⟨hid, hbody, hchain⟩, there, body, hslice, fits, hash⟩ := prepare_ok hp
  simp only [chainOf, signedBody_of_prepare hp hslice, chainFor_eq_ok] at hbs
  obtain ⟨signature, hs, preamble, hpre, hencode⟩ := hbs
  rw [hchain] at hencode
  have signedAs := signedAs_of_bodySignature hs (by
    intro found hf
    rcases hash with none | ⟨_, hsome, valid⟩
    · rw [none, blank] at hf
      cases hf
    · obtain rfl := Option.some.inj (hsome.symm.trans hf)
      exact valid)
  have size := signedAs.dataSize
  rw [List.length_take_of_le fits] at size
  exact ⟨hid, hbody, hchain, there, body, signature, preamble, hslice, fits, size, signedAs.vouches,
    hpre, hencode⟩

/-- Raw bodies ask for no integrity metadata. -/
theorem integrityMode_of_raw (raw : s.payload = .raw) (notRequired : s.options.integrity ≠ .required)
    (bodies : List Bytes) : s.integrityMode bodies = false := by
  unfold integrityMode
  cases policy : s.options.integrity with
  | auto =>
    rw [raw]
    exact List.any_eq_false.2 fun _ _ => Bool.false_ne_true
  | required => exact absurd policy notRequired
  | disabled => rfl

/-- Whether the metadata of an image are signed in the located slots of a layout. -/
def integrityIn (s : Signer) (layout : SlotLayout) (image : Bytes) : Bool :=
  s.integrityMode ((layout.ids.filterMap layout.locate).filterMap fun slot => slot.body.slice image)

/-- All located slots are built from one image, with one decision about metadata. -/
theorem plan_ok {layout : SlotLayout} {image : Bytes} {chains : List (Slot × Bytes)}
    (h : s.plan layout image = .ok chains) :
    (layout.ids.filterMap layout.locate).map (s.build layout image (s.integrityIn layout image))
      = chains.map .ok := by
  simp only [plan, bind_eq_ok, mapM_eq_ok_iff] at h
  obtain ⟨located, hl, h⟩ := h
  rw [locateSlots_ok hl] at h
  exact h

/-- A plan has one chain for each slot that the layout locates, in order. -/
theorem ids_of_plan {layout : SlotLayout} {image : Bytes} {chains : List (Slot × Bytes)}
    (h : s.plan layout image = .ok chains) :
    chains.map (·.1.id) = (layout.ids.filterMap layout.locate).map (·.id) := by
  refine map_eq_map_of_ok (plan_ok h) fun slot hs built hbuild => ?_
  obtain ⟨id, -, hl⟩ := List.mem_filterMap.1 hs
  exact (build_ok hbuild (SlotLayout.blank_of_locate hl).2).id

/-- Every slot that the layout locates is built. -/
theorem exists_mem_plan_of_locate {layout : SlotLayout} {image : Bytes} {chains : List (Slot × Bytes)}
    (h : s.plan layout image = .ok chains) {id : SlotId} {slot : Slot} (hid : id ∈ layout.ids)
    (hl : layout.locate id = some slot) : ∃ built ∈ chains, built.1.id = id := by
  have listed : slot.id ∈ chains.map (·.1.id) := by
    rw [ids_of_plan h]
    exact List.mem_map_of_mem (List.mem_filterMap.2 ⟨id, hid, hl⟩)
  obtain ⟨built, hb, same⟩ := List.mem_map.1 listed
  exact ⟨built, hb, same.trans (SlotLayout.blank_of_locate hl).1⟩

/-- The first slot is built. -/
theorem exists_first_of_plan {layout : SlotLayout} {image : Bytes} {chains : List (Slot × Bytes)}
    (h : s.plan layout image = .ok chains) {id : SlotId} {ids : List SlotId}
    (hids : layout.ids = id :: ids) : ∃ built ∈ chains, built.1.id = id := by
  have hplan := h
  simp only [plan, bind_eq_ok, hids] at hplan
  obtain ⟨located, hlocated, -⟩ := hplan
  rcases locateSlots_cons hlocated with ⟨slot, -, hl, -⟩ | ⟨first, -⟩
  · exact exists_mem_plan_of_locate h (hids ▸ List.mem_cons_self) hl
  · cases first

/-- A slot that is not built has no body. -/
theorem presentBody_of_plan {layout : SlotLayout} {image : Bytes} {chains : List (Slot × Bytes)}
    (h : s.plan layout image = .ok chains) {id : SlotId} (hid : id ∈ layout.ids)
    (missing : ∀ built ∈ chains, built.1.id ≠ id) : layout.presentBody id = none := by
  cases hl : layout.locate id with
  | some slot =>
    obtain ⟨built, hb, same⟩ := exists_mem_plan_of_locate h hid hl
    exact absurd same (missing built hb)
  | none =>
    simp only [plan, bind_eq_ok] at h
    obtain ⟨located, hlocated, -⟩ := h
    exact presentBody_of_locateSlots hlocated hid hl

/-- Every chain of a plan was built for a slot that the layout locates. -/
theorem built_of_mem_plan {layout : SlotLayout} {image : Bytes} {chains : List (Slot × Bytes)}
    (h : s.plan layout image = .ok chains) :
    ∃ integrity, ∀ built ∈ chains, built.1.id ∈ layout.ids ∧
      ∃ slot, layout.locate built.1.id = some slot ∧ s.Built image slot built ∧
        s.build layout image integrity slot = .ok built := by
  refine ⟨s.integrityIn layout image, fun built hb => ?_⟩
  obtain ⟨slot, hs, hbuild⟩ := List.mem_map.1 (plan_ok h ▸ List.mem_map_of_mem hb)
  obtain ⟨id, hid, hl⟩ := List.mem_filterMap.1 hs
  obtain ⟨hslot, blank⟩ := SlotLayout.blank_of_locate hl
  have h := build_ok hbuild blank
  obtain rfl : built.1.id = id := h.id.trans hslot
  exact ⟨hid, slot, hl, h, hbuild⟩

/-- A slot that is listed again is built again in the same way. -/
theorem eq_of_mem_plan {layout : SlotLayout} {image : Bytes} {chains : List (Slot × Bytes)}
    {built built' : Slot × Bytes} (h : s.plan layout image = .ok chains) (hb : built ∈ chains)
    (hb' : built' ∈ chains) (same : built.1.id = built'.1.id) : built = built' := by
  obtain ⟨integrity, all⟩ := built_of_mem_plan h
  obtain ⟨-, slot, hl, -, hbuild⟩ := all built hb
  obtain ⟨-, slot', hl', -, hbuild'⟩ := all built' hb'
  rw [same] at hl
  obtain rfl := Option.some.inj (hl.symm.trans hl')
  exact Except.ok.inj (hbuild.symm.trans hbuild')

end Signer
end VerifiedBoot
