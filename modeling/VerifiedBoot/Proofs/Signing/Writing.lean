/-
What a signing writes. All chains are built from the image as it was given; then each is written at
the start of its trust chain area, one after another, and the report has one entry for each. Where
the trust chain areas lie apart, no write reaches a body or the chain of another slot.
-/
import VerifiedBoot.Proofs.Signing.Plan

namespace VerifiedBoot

/-- What the report says of a slot that was built. -/
def SignedSlot.ofBuilt (built : Slot × Bytes) : SignedSlot where
  id := built.1.id
  version := built.1.version
  flags := built.1.flags
  bodyLength := built.1.bodyLength
  chainLength := built.2.length
  digestSigned := built.1.metadataHash.isSome

namespace Signer
variable {s : Signer} {image image' : Bytes} {chains : List (Slot × Bytes)}

/-- Where the chain of a slot is written, and its bytes. -/
def writeOf (built : Slot × Bytes) : Nat × Bytes := (built.1.chain.offset, built.2)

theorem writeChain_ok {slot : Slot} {chain : Bytes} {written : SignedSlot × Option Bytes}
    (h : writeChain slot chain image = .ok written image') :
    slot.chain.offset + chain.length ≤ image.length ∧
      image' = image.overwrite slot.chain.offset chain ∧
      written = (SignedSlot.ofBuilt (slot, chain), slot.chain.slice image') := by
  unfold writeChain at h
  obtain ⟨before, _, hget, h⟩ := run_bind_eq_ok.1 h
  cases hget
  by_cases fits : (Area.mk slot.chain.offset chain.length).fits image
  · simp only [fits] at h
    cases h
    refine ⟨?_, rfl, rfl⟩
    obtain ⟨part, hpart⟩ := Option.isSome_iff_exists.1 fits
    exact (Bytes.slice_eq_some.1 hpart).1
  · simp only [fits] at h
    cases h

/-- The chains are written as one run of writes, all of which fit. -/
theorem writeChains_ok {written : List (SignedSlot × Option Bytes)}
    (h : (chains.mapM fun (slot, chain) => writeChain slot chain) image = .ok written image') :
    (∀ built ∈ chains, built.1.chain.offset + built.2.length ≤ image.length) ∧
      image' = image.overwriteAll (chains.map writeOf) ∧
      written.map (·.1) = chains.map SignedSlot.ofBuilt := by
  induction chains generalizing image written with
  | nil =>
    cases h
    exact ⟨fun _ hb => absurd hb List.not_mem_nil, rfl, rfl⟩
  | cons built chains ih =>
    rw [List.mapM_cons] at h
    obtain ⟨first, between, hfirst, h⟩ := run_bind_eq_ok.1 h
    obtain ⟨rest, _, hrest, h⟩ := run_bind_eq_ok.1 h
    cases h
    obtain ⟨fits, rfl, rfl⟩ := writeChain_ok hfirst
    obtain ⟨restFits, rfl, entries⟩ := ih hrest
    refine ⟨?_, rfl, ?_⟩
    · intro b hb
      rcases List.mem_cons.1 hb with rfl | hb
      · exact fits
      · have := restFits b hb
        rwa [Bytes.length_overwrite fits] at this
    · rw [List.map_cons, List.map_cons, entries]

/-- A signing that succeeds has built the chain of every located slot and written them all. -/
theorem sign_ok {layout : SlotLayout} {report : SignReport}
    (h : s.sign layout image = .ok report image') :
    ∃ chains, s.plan layout image = .ok chains ∧
      (∀ built ∈ chains, built.1.chain.offset + built.2.length ≤ image.length) ∧
      image' = image.overwriteAll (chains.map writeOf) ∧
      report.slots = chains.map SignedSlot.ofBuilt := by
  unfold sign at h
  obtain ⟨before, _, hget, h⟩ := run_bind_eq_ok.1 h
  cases hget
  cases hp : s.plan layout image with
  | error e => simp only [hp] at h; cases h
  | ok chains =>
    simp only [hp] at h
    obtain ⟨written, _, hw, h⟩ := run_bind_eq_ok.1 h
    cases h
    obtain ⟨fits, rfl, entries⟩ := writeChains_ok hw
    exact ⟨chains, rfl, fits, rfl, entries⟩

/-- Each entry of a report is that of a located slot, as it was built. -/
theorem build_of_mem_report {layout : SlotLayout} {report : SignReport} {entry : SignedSlot}
    (h : s.sign layout image = .ok report image') (he : entry ∈ report.slots) :
    ∃ slot ∈ layout.ids.filterMap layout.locate, ∃ built,
      s.build layout image (s.integrityIn layout image) slot = .ok built ∧
      SignedSlot.ofBuilt built = entry := by
  obtain ⟨chains, hplan, -, -, entries⟩ := sign_ok h
  rw [entries] at he
  obtain ⟨built, hb, rfl⟩ := List.mem_map.1 he
  obtain ⟨slot, hs, hbuild⟩ := List.mem_map.1 (plan_ok hplan ▸ List.mem_map_of_mem hb)
  exact ⟨slot, hs, built, hbuild, rfl⟩

theorem Built.length_le {slot : Slot} {built : Slot × Bytes} (h : s.Built image slot built) :
    built.2.length ≤ slot.chain.length := by
  obtain ⟨_, _, _, -, -, -, -, -, hencode⟩ := h.signed
  obtain ⟨-, -, -, -, -, hle⟩ := TrustChain.encode_eq_ok.1 hencode
  exact hle

/-- What is written for a slot stays in its trust chain area. -/
theorem Built.disjoint_write {slot : Slot} {built : Slot × Bytes} (h : s.Built image slot built)
    {a : Area} (apart : slot.chain.Disjoint a) :
    (Area.mk (writeOf built).1 (writeOf built).2.length).Disjoint a := by
  unfold writeOf
  rw [h.chain]
  exact apart.shorten h.length_le

end Signer

/-! ## Areas apart -/

/-- The trust chain area of each located slot has no byte in common with a body area of a located
slot or with the trust chain area of another one. -/
def SlotLayout.ChainsApart (layout : SlotLayout) : Prop :=
  ∀ id ∈ layout.ids, ∀ id' ∈ layout.ids, ∀ slot slot',
    layout.locate id = some slot → layout.locate id' = some slot' →
      slot.chain.Disjoint slot'.body ∧ (id ≠ id' → slot.chain.Disjoint slot'.chain)

namespace Signer
variable {s : Signer} {image image' : Bytes} {layout : SlotLayout} {chains : List (Slot × Bytes)}

theorem writes_fit (fits : ∀ built ∈ chains, built.1.chain.offset + built.2.length ≤ image.length) :
    ∀ w ∈ chains.map writeOf, w.1 + w.2.length ≤ image.length := by
  intro w hw
  obtain ⟨built, hb, rfl⟩ := List.mem_map.1 hw
  exact fits built hb

/-- A part of the image that has no byte in common with a trust chain area of a located slot is as
before. -/
theorem slice_of_sign {report : SignReport} (h : s.sign layout image = .ok report image') {a : Area}
    (apart : ∀ id ∈ layout.ids, ∀ slot, layout.locate id = some slot → slot.chain.Disjoint a) :
    a.slice image' = a.slice image := by
  obtain ⟨chains, hplan, fits, rfl, -⟩ := sign_ok h
  obtain ⟨_, all⟩ := built_of_mem_plan hplan
  refine Bytes.slice_overwriteAll_of_disjoint (writes_fit fits) fun w hw => ?_
  obtain ⟨built, hb, rfl⟩ := List.mem_map.1 hw
  obtain ⟨hid, slot, hl, hbuilt, -⟩ := all built hb
  exact hbuilt.disjoint_write (apart _ hid slot hl)

/-- The bodies of the slots are as before. -/
theorem slice_body_of_sign {report : SignReport} {id : SlotId} {slot : Slot}
    (h : s.sign layout image = .ok report image') (apart : layout.ChainsApart)
    (hid : id ∈ layout.ids) (hl : layout.locate id = some slot) :
    slot.body.slice image' = slot.body.slice image :=
  slice_of_sign h fun id' hid' slot' hl' => (apart id' hid' id hid slot' slot hl' hl).1

/-- Each chain of a plan is written in its own trust chain area, and in no other one. A slot that is
listed again is written again as it is. -/
theorem writes_apart_of_plan (hplan : s.plan layout image = .ok chains) (apart : layout.ChainsApart)
    {built built' : Slot × Bytes} (hb : built ∈ chains) (hb' : built' ∈ chains) :
    writeOf built' = writeOf built ∨
      (Area.mk (writeOf built').1 (writeOf built').2.length).Disjoint built.1.chain := by
  obtain ⟨_, all⟩ := built_of_mem_plan hplan
  by_cases same : built'.1.id = built.1.id
  · rw [eq_of_mem_plan hplan hb' hb same]
    exact .inl rfl
  · obtain ⟨hid, slot, hl, hbuilt, -⟩ := all built hb
    obtain ⟨hid', slot', hl', hbuilt', -⟩ := all built' hb'
    rw [hbuilt.chain]
    exact .inr (hbuilt'.disjoint_write ((apart _ hid' _ hid slot' slot hl' hl).2 same))

/-- Every chain that was built is in place afterwards. -/
theorem slice_write_of_plan (hplan : s.plan layout image = .ok chains) (apart : layout.ChainsApart)
    (fits : ∀ built ∈ chains, built.1.chain.offset + built.2.length ≤ image.length)
    {built : Slot × Bytes} (hb : built ∈ chains) :
    (image.overwriteAll (chains.map writeOf)).slice built.1.chain.offset built.2.length
      = some built.2 := by
  obtain ⟨_, all⟩ := built_of_mem_plan hplan
  obtain ⟨-, slot, -, hbuilt, -⟩ := all built hb
  refine Bytes.slice_overwriteAll_of_mem (w := writeOf built) (writes_fit fits)
    (List.mem_map_of_mem hb) fun w hw => ?_
  obtain ⟨built', hb', rfl⟩ := List.mem_map.1 hw
  rcases writes_apart_of_plan hplan apart hb hb' with same | elsewhere
  · exact .inl same
  · rw [hbuilt.chain] at elsewhere
    exact .inr (hbuilt.disjoint_write elsewhere.symm).symm

/-- Every chain that was built starts its trust chain area afterwards. -/
theorem slice_chain_of_plan (hplan : s.plan layout image = .ok chains) (apart : layout.ChainsApart)
    (fits : ∀ built ∈ chains, built.1.chain.offset + built.2.length ≤ image.length)
    {built : Slot × Bytes} (hb : built ∈ chains) :
    ∃ area, built.1.chain.slice (image.overwriteAll (chains.map writeOf)) = some area ∧
      built.2 <+: area := by
  obtain ⟨_, all⟩ := built_of_mem_plan hplan
  obtain ⟨-, slot, -, hbuilt, -⟩ := all built hb
  obtain ⟨before, hbefore⟩ := hbuilt.chainThere
  rw [← hbuilt.chain] at hbefore
  obtain ⟨area, harea⟩ := Bytes.slice_of_length (Bytes.length_overwriteAll (writes_fit fits)) hbefore
  exact ⟨area, harea, Bytes.isPrefix_of_slice harea (slice_write_of_plan hplan apart fits hb)
    (hbuilt.chain ▸ hbuilt.length_le)⟩

/-! ## Reports -/

/-- Every entry of a report is that of a slot that was located and built. Its chain starts the trust
chain area afterwards, and its body is as before. -/
theorem built_of_mem_report {report : SignReport} (h : s.sign layout image = .ok report image')
    (apart : layout.ChainsApart) {entry : SignedSlot} (he : entry ∈ report.slots) :
    ∃ slot built area, layout.locate entry.id = some slot ∧ s.Built image slot built ∧
      SignedSlot.ofBuilt built = entry ∧ slot.chain.slice image' = some area ∧ built.2 <+: area ∧
      slot.body.slice image' = slot.body.slice image := by
  obtain ⟨chains, hplan, fits, himage, entries⟩ := sign_ok h
  rw [entries] at he
  obtain ⟨built, hb, rfl⟩ := List.mem_map.1 he
  obtain ⟨_, all⟩ := built_of_mem_plan hplan
  obtain ⟨hid, slot, hl, hbuilt, -⟩ := all built hb
  obtain ⟨area, harea, start⟩ := slice_chain_of_plan hplan apart fits hb
  rw [hbuilt.chain, ← himage] at harea
  exact ⟨slot, built, area, hl, hbuilt, rfl, harea, start, slice_body_of_sign h apart hid hl⟩

/-- The area that is reported with a chain is taken right after the chain is written. It is still the
same when all are written, if no other chain is written there. -/
theorem writeChains_areas {written : List (SignedSlot × Option Bytes)}
    (apart : ∀ built ∈ chains, ∀ built' ∈ chains, writeOf built' = writeOf built ∨
      (Area.mk (writeOf built').1 (writeOf built').2.length).Disjoint built.1.chain)
    (h : (chains.mapM fun (slot, chain) => writeChain slot chain) image = .ok written image') :
    written = chains.map fun built => (SignedSlot.ofBuilt built, built.1.chain.slice image') := by
  induction chains generalizing image written with
  | nil =>
    cases h
    rfl
  | cons built chains ih =>
    rw [List.mapM_cons] at h
    obtain ⟨first, between, hfirst, h⟩ := run_bind_eq_ok.1 h
    obtain ⟨rest, _, hrest, h⟩ := run_bind_eq_ok.1 h
    cases h
    obtain ⟨fits, rfl, rfl⟩ := writeChain_ok hfirst
    obtain ⟨restFits, rfl, -⟩ := writeChains_ok hrest
    have later : built.1.chain.slice ((image.overwrite built.1.chain.offset built.2).overwriteAll
        (chains.map writeOf)) = built.1.chain.slice (image.overwrite built.1.chain.offset built.2) := by
      refine Bytes.slice_congr (Bytes.length_overwriteAll (writes_fit restFits)) fun i hi => ?_
      refine Bytes.getElem?_overwriteAll_of_agrees (writes_fit restFits) fun w hw hc => ?_
      obtain ⟨built', hb', rfl⟩ := List.mem_map.1 hw
      rcases apart built List.mem_cons_self built' (List.mem_cons_of_mem _ hb') with same | elsewhere
      · rw [same] at hc ⊢
        exact (Bytes.getElem?_overwrite_of_covers fits hc).symm
      · exact absurd hi (elsewhere i hc)
    rw [List.map_cons, later, ih (fun b hb b' hb' => apart b (List.mem_cons_of_mem _ hb) b'
      (List.mem_cons_of_mem _ hb')) hrest]

/-- A report is all there is to be seen in the plan and in the signed image. -/
theorem report_of_sign {report : SignReport} (h : s.sign layout image = .ok report image')
    (hplan : s.plan layout image = .ok chains) (apart : layout.ChainsApart) :
    report = {
      slots := chains.map SignedSlot.ofBuilt
      vblocks := chains.filterMap fun built =>
        (built.1.chain.slice image').map fun area => (built.1.id, area) } := by
  unfold sign at h
  rw [run_get_bind, hplan] at h
  obtain ⟨written, _, hw, h⟩ := run_bind_eq_ok.1 h
  cases h
  rw [writeChains_areas (fun built hb built' hb' => writes_apart_of_plan hplan apart hb hb') hw]
  simp only [List.map_map, List.filterMap_map]
  rfl

end Signer
end VerifiedBoot
