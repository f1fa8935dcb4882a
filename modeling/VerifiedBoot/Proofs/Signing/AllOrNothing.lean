/-
Signing is all or nothing. Whatever the image, the layout and the signer are, a signing either fails
before the first write and leaves the image as it was, or writes the chain of every located slot, all
of them built from the image as it was given, and nothing else. No signing ends in an internal fault:
what could fail while chains are written has been checked when they were built.
-/
import VerifiedBoot.Proofs.Signing.Verified

namespace VerifiedBoot

/-! ## Internal faults -/

/-- An internal fault, in an area or not. -/
def Error.isInternal : Error → Bool
  | inArea _ cause => cause.isInternal
  | internal _ => true
  | _ => false

theorem Error.isInternal_withArea (area : String) (e : Error) :
    (e.withArea area).isInternal = e.isInternal := by
  cases e <;> rfl

theorem Error.isInternal_of_isReported {e : Error} (h : e.isReported = true) : e.isInternal = false := by
  induction e with
  | inArea area cause ih => exact ih h
  | internal fault => cases h
  | _ => rfl

/-- A computation that ends in no internal fault. -/
def FaultFree {α : Type} (x : Except Error α) : Prop := FailsOnly (·.isInternal = false) x

theorem Reports.faultFree {α : Type} {x : Except Error α} (h : Reports x) : FaultFree x :=
  FailsOnly.mono h fun _ => Error.isInternal_of_isReported

namespace Signer
variable {s : Signer} {image : Bytes} {layout : SlotLayout}

/-! ## What the steps of a plan report -/

theorem reports_locateSlots (layout : SlotLayout) (ids : List SlotId) (isFirst : Bool) :
    Reports (locateSlots layout ids isFirst) := by
  induction ids generalizing isFirst with
  | nil => exact .ok []
  | cons id ids ih =>
    unfold locateSlots
    cases layout.presentBody id with
    | none =>
      cases isFirst with
      | true => exact .policy _
      | false => exact ih false
    | some body =>
      cases layout.presentChain id with
      | none => exact .policy _
      | some chain => exact (ih false).bind fun rest _ => .ok _

theorem reports_signedLength {id : SlotId} {bodyName : String} {body : Bytes}
    {existing : Option ExistingChain} {integrity : Bool} :
    Reports (s.signedLength id bodyName body existing integrity) := by
  unfold signedLength
  split
  · split_ifs
    · exact .policy _
    · exact .ok _
  · split_ifs <;> exact .ok _

theorem reports_checkedMetadata {bodyName : String} {signed : Bytes} :
    Reports (s.checkedMetadata bodyName signed) := by
  unfold checkedMetadata
  cases s.payload.metadataHash signed s.primitives with
  | none => exact .policy _
  | some hash =>
    show Reports (if _ then _ else _)
    split_ifs
    · exact .ok hash
    · exact .policy _

theorem reports_prepare {slot : Slot} {bodyName chainName : String} {integrity : Bool} :
    Reports (s.prepare image slot bodyName chainName integrity) := by
  unfold prepare
  cases slot.body.slice image with
  | none => exact .policy _
  | some body =>
    cases slot.chain.slice image with
    | none => exact .policy _
    | some chain =>
      refine reports_signedLength.bind fun length _ => ?_
      cases integrity with
      | true => exact reports_checkedMetadata.map.bind fun hash _ => .ok _
      | false => exact .ok _

theorem reports_bodySignature {signed : Bytes} {hash : Option MetadataHash} :
    Reports (s.bodySignature signed hash) := by
  cases hash with
  | none =>
    refine (Reports.codec _).bind fun dataSize _ => ?_
    exact (Reports.trust _).bind fun blob _ => .ok _
  | some hash => exact (Reports.codec _).bind fun dataSize _ => .ok _

/-! ## No step of a plan is at fault -/

theorem faultFree_createPreamble {version : UInt16} {flags : UInt32} {bodySignature : Signature}
    {subkey : Option PackedKey} {signer : SigningKey} :
    FaultFree (Preamble.create version flags bodySignature subkey signer) := by
  refine (FailsOnly.sizeSum (by rfl) _).bind fun recordSize _ => ?_
  refine (Reports.codec _).faultFree.bind fun size _ => ?_
  refine (Reports.codec _).faultFree.bind fun dataSize _ => ?_
  refine (Reports.codec _).faultFree.bind fun signed _ => ?_
  exact (Reports.trust _).faultFree.bind fun blob _ => .ok _

theorem faultFree_chainFor {signed : Bytes} {hash : Option MetadataHash} {version : UInt16}
    {flags : UInt32} {capacity : Nat} :
    FaultFree (s.chainFor signed hash version flags capacity) := by
  refine reports_bodySignature.faultFree.bind fun signature _ => ?_
  exact faultFree_createPreamble.bind fun preamble _ => (Reports.codec _).faultFree

/-- The signed range of a slot is in the image, because the slot has been prepared. -/
theorem faultFree_build {integrity : Bool} {slot : Slot} :
    FaultFree (s.build layout image integrity slot) := by
  refine FailsOnly.mapError (FailsOnly.bind reports_prepare.faultFree fun prepared hp => ?_)
    fun e he => (e.isInternal_withArea _).trans he
  refine FailsOnly.bind ?_ fun bs _ => .ok _
  obtain ⟨-, -, body, hbody, -⟩ := prepare_ok hp
  simp only [chainOf, signedBody_of_prepare hp hbody]
  exact faultFree_chainFor

theorem faultFree_plan : FaultFree (s.plan layout image) := by
  refine (reports_locateSlots layout layout.ids true).faultFree.bind fun located _ => ?_
  exact FailsOnly.mapM (fun slot => faultFree_build) located

/-! ## What is refused -/

/-- Why a signing fails: the layout lacks an area that must be there, or a slot that it locates cannot
be prepared, or the chain of a prepared slot cannot be built. What is wrong with a slot is told with
the name of its trust chain area. -/
inductive Refusal (s : Signer) (layout : SlotLayout) (image : Bytes) : Error → Prop where
  | notLocated {e : Error} (h : locateSlots layout layout.ids true = .error e) :
      Refusal s layout image e
  | notPrepared {slot : Slot} {cause : Error} (located : slot ∈ layout.ids.filterMap layout.locate)
      (h : s.prepare image slot (layout.bodyName slot.id) (layout.chainName slot.id)
        (s.integrityIn layout image) = .error cause) :
      Refusal s layout image (cause.withArea (layout.chainName slot.id))
  | notBuilt {slot prepared : Slot} {cause : Error}
      (located : slot ∈ layout.ids.filterMap layout.locate)
      (hp : s.prepare image slot (layout.bodyName slot.id) (layout.chainName slot.id)
        (s.integrityIn layout image) = .ok prepared)
      (h : s.chainOf image prepared = .error cause) :
      Refusal s layout image (cause.withArea (layout.chainName slot.id))

theorem refusal_of_plan {e : Error} (h : s.plan layout image = .error e) :
    s.Refusal layout image e := by
  rcases bind_eq_error.1 h with h | ⟨located, hl, h⟩
  · exact .notLocated h
  obtain ⟨slot, hs, hbuild⟩ := exists_mem_of_mapM_eq_error h
  rw [locateSlots_ok hl] at hs hbuild
  obtain ⟨cause, hcause, rfl⟩ := mapError_eq_error.1 hbuild
  rcases bind_eq_error.1 hcause with hp | ⟨prepared, hp, hcause⟩
  · exact .notPrepared hs hp
  rcases bind_eq_error.1 hcause with hc | ⟨bs, -, hcause⟩
  · exact .notBuilt hs hp hc
  · cases hcause

/-! ## What is built -/

/-- The chain that is built for a slot where it was located, all of it from one image. -/
structure BuiltFrom (s : Signer) (layout : SlotLayout) (image : Bytes) (slot : Slot)
    (built : Slot × Bytes) : Prop where
  prepared : s.prepare image slot (layout.bodyName slot.id) (layout.chainName slot.id)
    (s.integrityIn layout image) = .ok built.1
  chain : s.chainOf image built.1 = .ok built.2
  /-- The chain will be written where the slot keeps it. -/
  area : built.1.chain = slot.chain
  fits : built.2.length ≤ slot.chain.length
  /-- The trust chain area lies inside the image. -/
  inside : slot.chain.offset + slot.chain.length ≤ image.length

theorem builtFrom_of_build {slot : Slot} {built : Slot × Bytes}
    (h : s.build layout image (s.integrityIn layout image) slot = .ok built) :
    s.BuiltFrom layout image slot built := by
  simp only [build, mapError_ok_iff, bind_eq_ok, pure_eq_ok] at h
  obtain ⟨prepared, hp, bs, hbs, rfl⟩ := h
  obtain ⟨⟨-, -, area⟩, ⟨before, hbefore⟩, body, hbody, -⟩ := prepare_ok hp
  have encoded := hbs
  simp only [chainOf, signedBody_of_prepare hp hbody, chainFor_eq_ok] at encoded
  obtain ⟨-, -, preamble, -, hencode⟩ := encoded
  obtain ⟨-, -, -, -, -, fits⟩ := TrustChain.encode_eq_ok.1 hencode
  exact ⟨hp, hbs, area, area ▸ fits, (Bytes.slice_eq_some.1 hbefore).1⟩

/-- A plan has a chain for each located slot, in order. -/
theorem builtFrom_of_plan {chains : List (Slot × Bytes)} (h : s.plan layout image = .ok chains) :
    List.Forall₂ (s.BuiltFrom layout image) (layout.ids.filterMap layout.locate) chains := by
  have all := plan_ok h
  rw [← List.forall₂_eq_eq_eq, List.forall₂_map_left_iff, List.forall₂_map_right_iff] at all
  exact all.imp fun slot built hbuild => builtFrom_of_build hbuild

/-- Every chain of a plan fits where it is to be written. -/
theorem fits_of_plan {chains : List (Slot × Bytes)} (h : s.plan layout image = .ok chains) :
    ∀ built ∈ chains, built.1.chain.offset + built.2.length ≤ image.length := by
  intro built hb
  obtain ⟨slot, -, hbuild⟩ := List.mem_map.1 (plan_ok h ▸ List.mem_map_of_mem hb)
  have source := builtFrom_of_build hbuild
  have fits := source.fits
  have inside := source.inside
  rw [source.area]
  omega

/-! ## What is written -/

theorem writeChain_of_fits {slot : Slot} {chain : Bytes}
    (fits : slot.chain.offset + chain.length ≤ image.length) :
    ∃ written, writeChain slot chain image
      = .ok written (image.overwrite slot.chain.offset chain) := by
  have there : (Area.mk slot.chain.offset chain.length).fits image = true :=
    Option.isSome_iff_exists.2 ⟨_, Bytes.slice_eq_some.2 ⟨fits, rfl⟩⟩
  refine ⟨(SignedSlot.ofBuilt (slot, chain),
    slot.chain.slice (image.overwrite slot.chain.offset chain)), ?_⟩
  unfold writeChain
  rw [run_get_bind]
  simp only [there]
  rfl

/-- Chains that all fit are all written: a write leaves the room for the next. -/
theorem writeChains_of_fits {chains : List (Slot × Bytes)}
    (fits : ∀ built ∈ chains, built.1.chain.offset + built.2.length ≤ image.length) :
    ∃ written, (chains.mapM fun (slot, chain) => writeChain slot chain) image
      = .ok written (image.overwriteAll (chains.map writeOf)) := by
  induction chains generalizing image with
  | nil => exact ⟨[], rfl⟩
  | cons built chains ih =>
    have fit := fits built List.mem_cons_self
    obtain ⟨first, hfirst⟩ := writeChain_of_fits fit
    have restFits : ∀ b ∈ chains, b.1.chain.offset + b.2.length
        ≤ (image.overwrite built.1.chain.offset built.2).length := by
      intro b hb
      rw [Bytes.length_overwrite fit]
      exact fits b (List.mem_cons_of_mem _ hb)
    obtain ⟨rest, hrest⟩ := ih restFits
    refine ⟨first :: rest, ?_⟩
    rw [List.mapM_cons]
    exact run_bind_eq_ok.2 ⟨first, _, hfirst, run_bind_eq_ok.2 ⟨rest, _, hrest, rfl⟩⟩

theorem sign_of_plan_error {e : Error} (h : s.plan layout image = .error e) :
    s.sign layout image = .error e image := by
  unfold sign
  rw [run_get_bind, h]
  rfl

/-- Once there is a plan, nothing can fail. -/
theorem sign_of_plan {chains : List (Slot × Bytes)} (h : s.plan layout image = .ok chains) :
    ∃ report, s.sign layout image = .ok report (image.overwriteAll (chains.map writeOf)) ∧
      report.slots = chains.map SignedSlot.ofBuilt := by
  obtain ⟨written, hw⟩ := writeChains_of_fits (fits_of_plan h)
  have signed : ∃ report, s.sign layout image
      = .ok report (image.overwriteAll (chains.map writeOf)) := by
    unfold sign
    rw [run_get_bind, h]
    exact ⟨_, run_bind_of_ok hw⟩
  obtain ⟨report, hsign⟩ := signed
  obtain ⟨chains', h', -, -, entries⟩ := sign_ok hsign
  obtain rfl := Except.ok.inj (h.symm.trans h')
  exact ⟨report, hsign, entries⟩

/-! ## All or nothing -/

/-- A signing is refused with the image as it was and no internal fault, or it writes for each located
slot, in order, the chain that the slot is built into from the image as it was given, and no other
byte. -/
theorem sign_all_or_nothing (s : Signer) (layout : SlotLayout) (image : Bytes) :
    (∃ e, s.sign layout image = .error e image ∧ e.isInternal = false ∧
      s.Refusal layout image e) ∨
    ∃ report image' chains, s.sign layout image = .ok report image' ∧
      List.Forall₂ (s.BuiltFrom layout image) (layout.ids.filterMap layout.locate) chains ∧
      report.slots = chains.map SignedSlot.ofBuilt ∧
      image' = image.overwriteAll (chains.map fun built => (built.1.chain.offset, built.2)) ∧
      image'.length = image.length ∧
      (∀ i, (∀ built ∈ chains, ¬ (Area.mk built.1.chain.offset built.2.length).Covers i) →
        image'[i]? = image[i]?) ∧
      ∀ before built after i, chains = before ++ built :: after →
        (Area.mk built.1.chain.offset built.2.length).Covers i →
        (∀ later ∈ after, ¬ (Area.mk later.1.chain.offset later.2.length).Covers i) →
        image'[i]? = built.2[i - built.1.chain.offset]? := by
  cases h : s.plan layout image with
  | error e => exact .inl ⟨e, sign_of_plan_error h, faultFree_plan e h, refusal_of_plan h⟩
  | ok chains =>
    obtain ⟨report, hsign, entries⟩ := sign_of_plan h
    have fits := writes_fit (fits_of_plan h)
    refine .inr ⟨report, _, chains, hsign, builtFrom_of_plan h, entries, rfl,
      Bytes.length_overwriteAll fits, ?_, ?_⟩
    · intro i untouched
      refine Bytes.getElem?_overwriteAll_of_not_covers fits fun w hw => ?_
      obtain ⟨built, hb, rfl⟩ := List.mem_map.1 hw
      exact untouched built hb
    · rintro before built after i rfl covered last
      rw [List.map_append, List.map_cons] at fits ⊢
      refine Bytes.getElem?_overwriteAll_of_last fits covered fun w hw => ?_
      obtain ⟨later, hl, rfl⟩ := List.mem_map.1 hw
      exact last later hl

/-- The two slots, where the trust chain area of the second would end beyond the largest offset. -/
def endlessSlots : SlotLayout :=
  { twoSlots with
    chainArea
      | .a => some ⟨0, 126⟩
      | .b => some ⟨sizeBound - 1, 126⟩ }

theorem length_twoSlotImage : twoSlotImage.length = 260 := by
  unfold twoSlotImage
  simp only [List.length_append, List.length_replicate, List.length_cons, List.length_nil]

/-- Two slots are signed and their bodies stay as they are; where the second cannot be signed, the
first is not signed either. -/
theorem two_slots_or_none :
    (∃ report image', sampleSigner.sign twoSlots twoSlotImage = .ok report image' ∧
      image'.length = 260 ∧ ∀ i, 126 ≤ i → i < 130 → image'[i]? = twoSlotImage[i]?) ∧
    ∃ e, sampleSigner.sign endlessSlots twoSlotImage = .error e twoSlotImage ∧
      e.isInternal = false := by
  constructor
  · have run : ((sampleSigner.sign twoSlots).run' twoSlotImage).isSome = true := by decide +kernel
    rcases sign_all_or_nothing sampleSigner twoSlots twoSlotImage with
      ⟨e, failed, -, -⟩ | ⟨report, image', chains, signed, builts, -, -, length, frame, -⟩
    · obtain ⟨report, hreport⟩ := Option.isSome_iff_exists.1 run
      obtain ⟨_, _, signed, -⟩ := run'_map_eq_some.1 (congrArg (Option.map id) hreport)
      rw [failed] at signed
      cases signed
    · refine ⟨report, image', signed, length.trans length_twoSlotImage, fun i h₁ h₂ => ?_⟩
      -- the chains are written at 0 and at 130, and none is longer than its area
      have located : twoSlots.ids.filterMap twoSlots.locate
          = [.ofAreas .a ⟨126, 4⟩ ⟨0, 126⟩, .ofAreas .b ⟨256, 4⟩ ⟨130, 126⟩] := rfl
      rw [located] at builts
      obtain ⟨first, _, hfirst, others, rfl⟩ := List.forall₂_cons_left_iff.1 builts
      obtain ⟨second, _, hsecond, none, rfl⟩ := List.forall₂_cons_left_iff.1 others
      obtain rfl := List.forall₂_nil_left_iff.1 none
      have fits : first.2.length ≤ 126 := hfirst.fits
      refine frame i fun built hb hcovers => ?_
      obtain ⟨hle, hlt⟩ := hcovers
      rcases List.mem_pair.1 hb with rfl | rfl
      · rw [hfirst.area] at hlt
        simp only [Slot.ofAreas] at hlt
        omega
      · rw [hsecond.area] at hle
        simp only [Slot.ofAreas] at hle
        omega
  · rcases sign_all_or_nothing sampleSigner endlessSlots twoSlotImage with
      ⟨e, failed, noFault, -⟩ | ⟨_, _, chains, -, builts, -⟩
    · exact ⟨e, failed, noFault⟩
    · have located : endlessSlots.ids.filterMap endlessSlots.locate
          = [.ofAreas .a ⟨126, 4⟩ ⟨0, 126⟩, .ofAreas .b ⟨256, 4⟩ ⟨sizeBound - 1, 126⟩] := rfl
      rw [located] at builts
      obtain ⟨first, _, -, others, rfl⟩ := List.forall₂_cons_left_iff.1 builts
      obtain ⟨second, _, hsecond, none, rfl⟩ := List.forall₂_cons_left_iff.1 others
      have inside : sizeBound - 1 + 126 ≤ twoSlotImage.length := hsecond.inside
      rw [length_twoSlotImage] at inside
      exact absurd inside (by decide)

end Signer
end VerifiedBoot
