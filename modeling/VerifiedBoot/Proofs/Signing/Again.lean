/-
Signing again changes nothing. What a signing leaves open it takes from the chain in place; the chain
that it writes says what it decided, so that the next signing decides the same, builds the same chains
and finds every one of them in place.
-/
import VerifiedBoot.Proofs.Signing.AllOrNothing

namespace VerifiedBoot

/-! ## The chain in place -/

/-- A chain that the primitives accept by its own data key, and whose body has room, is what is found
in an area that holds it. -/
theorem ExistingChain.inspect_of_parse {area : Bytes} {size : Nat} {primitives : TrustPrimitives}
    {c : TrustChain} (parsed : TrustChain.parse area = .ok c)
    (usable : primitives.checkKey c.keyblock.dataKey = .ok ())
    (signed : c.preamble.verifySignature c.keyblock.dataKey primitives = .ok ())
    (room : c.preamble.bodyLength ≤ size) :
    inspect area size primitives
      = some ⟨c.preamble.version, c.preamble.flags, c.preamble.bodyLength⟩ := by
  obtain ⟨hk, hp⟩ := TrustChain.parse_eq_ok.1 parsed
  simp only [inspect, Option.bind_eq_bind, Option.bind_eq_some_iff, Option.guard_eq_some',
    Option.pure_def, isOk_iff]
  refine ⟨c.keyblock, ?_, (), usable, c.preamble, ?_, (), signed, (), room, rfl⟩
  · rw [hk]; rfl
  · rw [hp]; rfl

namespace Signer
variable {s : Signer} {image image' : Bytes} {layout : SlotLayout} {chains : List (Slot × Bytes)}

/-- A built chain that starts an area says of its slot what was decided for it. -/
theorem Built.inspect {source : ChainSource} {slot : Slot} {built : Slot × Bytes} {area body : Bytes}
    (h : s.Built image slot built) (made : source.keyblock = .ok s.keyblock)
    (algorithm : s.keyblock.dataKey.algorithm = s.dataKey.algorithm.raw)
    (usable : s.primitives.checkKey s.keyblock.dataKey = .ok ())
    (accepts : ∀ data blob, s.dataKey.sign data = .ok blob →
      s.primitives.verify s.keyblock.dataKey data blob = .ok ())
    (start : built.2 <+: area) (hbody : slot.body.slice image = some body) :
    ExistingChain.inspect area body.length s.primitives
      = some ⟨built.1.version, built.1.flags, built.1.bodyLength⟩ := by
  obtain ⟨body', preamble, hbody', fits, chain⟩ := h.signedChain
  obtain rfl := Option.some.inj (hbody.symm.trans hbody')
  obtain ⟨hversion, hflags, -⟩ := chain.fields
  have hlength : preamble.bodyLength = built.1.bodyLength := by
    rw [chain.length, List.length_take_of_le fits]
  rw [ExistingChain.inspect_of_parse (chain.parse made start) usable
    (chain.verifySignature algorithm accepts) (hlength.trans_le fits), hversion, hflags, hlength]

/-! ## Decisions -/

/-- A length that was decided is decided again where the chain in place gives it. -/
theorem signedLength_again {id : SlotId} {bodyName : String} {body : Bytes}
    {existing : Option ExistingChain} {integrity : Bool} {n : Nat} {found : ExistingChain}
    (h : s.signedLength id bodyName body existing integrity = .ok n) (hn : found.bodyLength = n) :
    s.signedLength id bodyName body (some found) integrity = .ok n := by
  unfold signedLength at h ⊢
  cases hstated : s.statedLength id body with
  | some length =>
    simp only [hstated] at h ⊢
    exact h
  | none =>
    simp only [hstated] at h ⊢
    cases integrity with
    | true => exact h
    | false =>
      show Except.ok found.bodyLength = .ok n
      rw [hn]

/-- What is asked for, or else inherited, or else a default, is the same once it is inherited. -/
theorem getD_orElse_again {α : Type} (asked inherited : Option α) (default : α) :
    (asked <|> some ((asked <|> inherited).getD default)).getD default
      = (asked <|> inherited).getD default := by
  cases asked <;> rfl

/-- A slot is prepared in the same way in an image that has its body, and the chain that it was
prepared for. -/
theorem prepare_again {slot prepared : Slot} {bodyName chainName : String} {integrity : Bool}
    {area body : Bytes} (h : s.prepare image slot bodyName chainName integrity = .ok prepared)
    (hbody : slot.body.slice image = some body) (hbody' : slot.body.slice image' = some body)
    (harea : slot.chain.slice image' = some area)
    (inPlace : ExistingChain.inspect area body.length s.primitives
      = some ⟨prepared.version, prepared.flags, prepared.bodyLength⟩) :
    s.prepare image' slot bodyName chainName integrity = .ok prepared := by
  obtain ⟨body', hb, before, -, n, hn, hash, hhash, rfl⟩ := prepare_eq_ok.1 h
  obtain rfl := Option.some.inj (hbody.symm.trans hb)
  refine prepare_eq_ok.2 ⟨_, hbody', area, harea, n, ?_, hash, hhash, ?_⟩
  · rw [inPlace]
    exact signedLength_again hn rfl
  · simp only [inPlace, Option.map_some, getD_orElse_again]

/-- A slot is built into the same chain in an image that has its body, and that chain in place. -/
theorem build_again {integrity : Bool} {slot : Slot} {built : Slot × Bytes} {area body : Bytes}
    (h : s.build layout image integrity slot = .ok built)
    (hbody : slot.body.slice image = some body) (hbody' : slot.body.slice image' = some body)
    (harea : slot.chain.slice image' = some area)
    (inPlace : ExistingChain.inspect area body.length s.primitives
      = some ⟨built.1.version, built.1.flags, built.1.bodyLength⟩) :
    s.build layout image' integrity slot = .ok built := by
  simp only [build, mapError_ok_iff, bind_eq_ok, pure_eq_ok] at h ⊢
  obtain ⟨prepared, hp, bs, hbs, rfl⟩ := h
  have again := prepare_again hp hbody hbody' harea inPlace
  simp only [chainOf, signedBody_of_prepare hp hbody] at hbs
  refine ⟨prepared, again, bs, ?_, rfl⟩
  simp only [chainOf, signedBody_of_prepare again hbody']
  exact hbs

/-! ## Plans -/

/-- A plan is made again where the bodies are as before and every chain of the plan is in place. -/
theorem plan_again (hplan : s.plan layout image = .ok chains)
    (bodies : ∀ id ∈ layout.ids, ∀ slot, layout.locate id = some slot →
      slot.body.slice image' = slot.body.slice image)
    (inPlace : ∀ slot built body, s.Built image slot built → built ∈ chains →
      slot.body.slice image = some body → ∃ area, slot.chain.slice image' = some area ∧
        ExistingChain.inspect area body.length s.primitives
          = some ⟨built.1.version, built.1.flags, built.1.bodyLength⟩) :
    s.plan layout image' = .ok chains := by
  have builds := plan_ok hplan
  have mode : s.integrityIn layout image' = s.integrityIn layout image := by
    unfold integrityIn
    congr 1
    refine List.filterMap_congr fun slot hs => ?_
    obtain ⟨id, hid, hl⟩ := List.mem_filterMap.1 hs
    exact bodies id hid slot hl
  simp only [plan, bind_eq_ok] at hplan ⊢
  obtain ⟨located, hl, -⟩ := hplan
  refine ⟨located, hl, ?_⟩
  rw [locateSlots_ok hl, mapM_eq_ok_iff, ← builds]
  refine List.map_congr_left fun slot hs => ?_
  obtain ⟨id, hid, hloc⟩ := List.mem_filterMap.1 hs
  obtain ⟨built, hb, hbuild⟩ := List.mem_map.1 (builds ▸ List.mem_map_of_mem hs)
  have hbuilt := build_ok hbuild.symm (SlotLayout.blank_of_locate hloc).2
  obtain ⟨body, -, -, hbody, -⟩ := hbuilt.signed
  obtain ⟨area, harea, found⟩ := inPlace slot built body hbuilt hb hbody
  show s.build layout image' (s.integrityIn layout image') slot = _
  rw [mode, ← hbuild]
  exact build_again hbuild.symm hbody ((bodies id hid slot hloc).trans hbody) harea found

/-! ## Signing twice -/

/-- A signing that succeeds succeeds again on the signed image, with the same report, and leaves that
image as it is: what was asked for, inherited or chosen for want of both is found in the chains. -/
theorem sign_again {source : ChainSource} {dataKey : SigningKey} {options : SignOptions}
    {primitives : TrustPrimitives} {payload : PayloadFormat} {report : SignReport}
    (made : make source dataKey options primitives payload = .ok s) (apart : layout.ChainsApart)
    (usable : primitives.checkKey s.keyblock.dataKey = .ok ())
    (accepts : ∀ data blob, s.dataKey.sign data = .ok blob →
      primitives.verify s.keyblock.dataKey data blob = .ok ())
    (signed : s.sign layout image = .ok report image') :
    s.sign layout image' = .ok report image' := by
  obtain ⟨hk, algorithm, -, rfl, -⟩ := make_ok made
  obtain ⟨chains, hplan, fits, himage, -⟩ := sign_ok signed
  have again : s.plan layout image' = .ok chains := by
    refine plan_again hplan (fun id hid slot hl => slice_body_of_sign signed apart hid hl) ?_
    intro slot built body hbuilt hb hbody
    obtain ⟨area, harea, start⟩ := slice_chain_of_plan hplan apart fits hb
    rw [hbuilt.chain, ← himage] at harea
    exact ⟨area, harea, hbuilt.inspect hk algorithm usable accepts start hbody⟩
  have unchanged : image'.overwriteAll (chains.map writeOf) = image' := by
    refine Bytes.overwriteAll_of_in_place fun w hw => ?_
    obtain ⟨built, hb, rfl⟩ := List.mem_map.1 hw
    rw [himage]
    exact slice_write_of_plan hplan apart fits hb
  obtain ⟨report', hsign, -⟩ := sign_of_plan again
  rw [unchanged] at hsign
  rw [hsign, report_of_sign hsign again apart, report_of_sign signed hplan apart]

/-- Asks for nothing, so that all is inherited or a default. -/
def inheritingSigner : Signer := { sampleSigner with options := .none }

theorem make_inheritingSigner : make (.reuse TrustChain.sampleBytes) inheritingSigner.dataKey .none
    inheritingSigner.primitives .raw = .ok inheritingSigner :=
  make_reuse_sample _ _ _

/-- Without any chain in place, two slots are signed with the defaults; then the chains in place are
inherited, and the signed image is signed as it was. -/
theorem two_slots_signed_again : ∃ report image',
    inheritingSigner.sign twoSlots twoSlotImage = .ok report image' ∧
    report.slots = [⟨.a, 1, 0, 4, 124, false⟩, ⟨.b, 1, 0, 4, 124, false⟩] ∧
    inheritingSigner.sign twoSlots image' = .ok report image' := by
  have run : ((inheritingSigner.sign twoSlots).run' twoSlotImage).map (·.slots)
      = some [⟨.a, 1, 0, 4, 124, false⟩, ⟨.b, 1, 0, 4, 124, false⟩] := by
    decide +kernel
  obtain ⟨report, image', signed, slots⟩ := run'_map_eq_some.1 run
  exact ⟨report, image', signed, slots, sign_again make_inheritingSigner chainsApart_twoSlots rfl
    trustedUnder_sampleSigner.accepts signed⟩

end Signer
end VerifiedBoot
