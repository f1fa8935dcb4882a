/-
Each slot is signed by itself. A signing passes over all slots with one image, one keyblock and one
decision about metadata, but what it builds for a slot it reads from the two areas of that slot, and
it writes nothing before all is built. So images that agree there, and on that decision, have the
same chain written for the slot and the same entry reported, whatever they hold elsewhere and wherever
the areas of other slots lie.
-/
import VerifiedBoot.Proofs.Signing.Verified

namespace VerifiedBoot
namespace Signer
variable {s : Signer} {layout : SlotLayout} {image image' after after' : Bytes}
  {chains chains' : List (Slot × Bytes)} {report report' : SignReport}

/-! ## Building -/

theorem prepare_congr {slot : Slot} {bodyName chainName : String} {integrity : Bool}
    (body : slot.body.slice image = slot.body.slice image')
    (chain : slot.chain.slice image = slot.chain.slice image') :
    s.prepare image slot bodyName chainName integrity
      = s.prepare image' slot bodyName chainName integrity := by
  unfold prepare
  rw [body, chain]

/-- A slot is built from its body and its trust chain area. -/
theorem build_congr {integrity : Bool} {slot : Slot}
    (body : slot.body.slice image = slot.body.slice image')
    (chain : slot.chain.slice image = slot.chain.slice image') :
    s.build layout image integrity slot = s.build layout image' integrity slot := by
  unfold build
  rw [prepare_congr body chain]
  cases hp : s.prepare image' slot (layout.bodyName slot.id) (layout.chainName slot.id) integrity with
  | error e => rfl
  | ok prepared =>
    -- the signed range lies in the body
    obtain ⟨-, -, bytes, hbytes, -⟩ := prepare_ok hp
    have signed := signedBody_of_prepare hp hbytes
    have signed' := signedBody_of_prepare ((prepare_congr body chain).trans hp) (body.trans hbytes)
    have same : s.chainOf image prepared = s.chainOf image' prepared := by
      simp only [chainOf, signed, signed']
    simp only [bind, Except.bind, same]

/-- What a plan has for an id is what the located slots of that id are built into. -/
theorem build_filter_of_plan (h : s.plan layout image = .ok chains) (id : SlotId) :
    ((layout.ids.filterMap layout.locate).filter (·.id = id)).map
        (s.build layout image (s.integrityIn layout image))
      = (chains.filter (·.1.id = id)).map .ok := by
  refine map_filter_of_ok (plan_ok h) fun slot hs built hbuild => ?_
  obtain ⟨_, -, hl⟩ := List.mem_filterMap.1 hs
  rw [(build_ok hbuild (SlotLayout.blank_of_locate hl).2).id]

/-- The areas of a located slot are those that the layout gives to its id. -/
theorem areas_of_locate {id : SlotId} {slot : Slot} (h : layout.locate id = some slot) :
    layout.bodyArea id = some slot.body ∧ layout.chainArea id = some slot.chain := by
  obtain ⟨chain, hchain, body, hbody, rfl⟩ := SlotLayout.locate_eq_some.1 h
  exact ⟨(Option.filter_eq_some_iff.1 hbody).1, (Option.filter_eq_some_iff.1 hchain).1⟩

/-! ## What is written -/

/-- What a signing has done: it has written each chain of its plan at the start of its trust chain
area, one after another, and has reported it with that area, which then began with the chain. -/
structure Writes (s : Signer) (layout : SlotLayout) (image : Bytes) (chains : List (Slot × Bytes))
    (report : SignReport) (after : Bytes) : Prop where
  planned : s.plan layout image = .ok chains
  written : after = image.overwriteAll (chains.map writeOf)
  entries : report.slots = chains.map SignedSlot.ofBuilt
  areas : List.Forall₂ (fun built vblock => vblock.1 = built.1.id ∧
    vblock.2.length = built.1.chain.length ∧ built.2 <+: vblock.2) chains report.vblocks

theorem area_of_writeChain {slot : Slot} {chain : Bytes} {written : SignedSlot × Option Bytes}
    (inside : slot.chain.offset + slot.chain.length ≤ image.length)
    (fits : chain.length ≤ slot.chain.length) (h : writeChain slot chain image = .ok written after) :
    ∃ area, written = (SignedSlot.ofBuilt (slot, chain), some area) ∧
      area.length = slot.chain.length ∧ chain <+: area := by
  obtain ⟨room, rfl, rfl⟩ := writeChain_ok h
  obtain ⟨area, harea⟩ : ∃ area, slot.chain.slice (image.overwrite slot.chain.offset chain) = some area :=
    ⟨_, Bytes.slice_eq_some.2 ⟨(Bytes.length_overwrite room).symm ▸ inside, rfl⟩⟩
  exact ⟨area, by rw [harea], Bytes.length_slice harea,
    Bytes.isPrefix_of_slice harea (Bytes.slice_overwrite room) fits⟩

/-- Each area that is reported begins with the chain that was just written, also where the chain of
another slot is written over it later. -/
theorem areas_of_writeChains {written : List (SignedSlot × Option Bytes)}
    (inside : ∀ built ∈ chains, built.1.chain.offset + built.1.chain.length ≤ image.length)
    (fits : ∀ built ∈ chains, built.2.length ≤ built.1.chain.length)
    (h : (chains.mapM fun (slot, chain) => writeChain slot chain) image = .ok written after) :
    List.Forall₂ (fun built vblock => vblock.1 = built.1.id ∧
        vblock.2.length = built.1.chain.length ∧ built.2 <+: vblock.2) chains
      (written.filterMap fun (entry, area) => area.map fun bs => (entry.id, bs)) := by
  induction chains generalizing image written with
  | nil =>
    cases h
    exact .nil
  | cons built chains ih =>
    rw [List.mapM_cons] at h
    obtain ⟨first, between, hfirst, h⟩ := run_bind_eq_ok.1 h
    obtain ⟨rest, _, hrest, h⟩ := run_bind_eq_ok.1 h
    cases h
    obtain ⟨room, hbetween, -⟩ := writeChain_ok hfirst
    have length : between.length = image.length := hbetween ▸ Bytes.length_overwrite room
    obtain ⟨area, rfl, harea, start⟩ :=
      area_of_writeChain (inside _ List.mem_cons_self) (fits _ List.mem_cons_self) hfirst
    refine .cons ⟨rfl, harea, start⟩ (ih ?_ (fun b hb => fits b (List.mem_cons_of_mem _ hb)) hrest)
    intro b hb
    rw [length]
    exact inside b (List.mem_cons_of_mem _ hb)

theorem writes_of_sign (h : s.sign layout image = .ok report after) :
    ∃ chains, s.Writes layout image chains report after := by
  obtain ⟨chains, hplan, -, himage, entries⟩ := sign_ok h
  obtain ⟨_, all⟩ := built_of_mem_plan hplan
  refine ⟨chains, hplan, himage, entries, ?_⟩
  unfold sign at h
  rw [run_get_bind, hplan] at h
  obtain ⟨written, _, hw, h⟩ := run_bind_eq_ok.1 h
  cases h
  refine areas_of_writeChains (fun built hb => ?_) (fun built hb => ?_) hw
  · obtain ⟨-, slot, -, hbuilt, -⟩ := all built hb
    obtain ⟨area, harea⟩ := hbuilt.chainThere
    rw [hbuilt.chain]
    exact (Bytes.slice_eq_some.1 harea).1
  · obtain ⟨-, slot, -, hbuilt, -⟩ := all built hb
    rw [hbuilt.chain]
    exact hbuilt.length_le

/-! ## One slot in two images -/

/-- Plans for images that agree in the areas of a slot, and on whether metadata are signed, have the
same chains for that slot. -/
theorem filter_plan_congr {id : SlotId}
    (body : ∀ a, layout.bodyArea id = some a → a.slice image = a.slice image')
    (chain : ∀ a, layout.chainArea id = some a → a.slice image = a.slice image')
    (integrity : s.integrityIn layout image = s.integrityIn layout image')
    (h : s.plan layout image = .ok chains) (h' : s.plan layout image' = .ok chains') :
    chains.filter (·.1.id = id) = chains'.filter (·.1.id = id) := by
  rw [← List.map_inj_right fun _ _ => Except.ok.inj, ← build_filter_of_plan h,
    ← build_filter_of_plan h', integrity]
  refine List.map_congr_left fun slot hs => ?_
  obtain ⟨hs, same⟩ := List.mem_filter.1 hs
  obtain ⟨id', -, hl⟩ := List.mem_filterMap.1 hs
  obtain rfl : id' = id := (SlotLayout.blank_of_locate hl).1.symm.trans (of_decide_eq_true same)
  obtain ⟨hbody, hchain⟩ := areas_of_locate hl
  exact build_congr (body _ hbody) (chain _ hchain)

/-- The entries of a report for an id are those of what was built for it. -/
theorem Writes.entries_of_id (h : s.Writes layout image chains report after) (id : SlotId) :
    report.slots.filter (·.id = id) = (chains.filter (·.1.id = id)).map SignedSlot.ofBuilt := by
  rw [h.entries, List.filter_map]
  rfl

/-- Of two images of one length that agree in the body and in the trust chain area of a slot, and on
whether metadata are signed, both signings write the same chain for that slot and report the same of
it. Nothing is asked of the other slots, or of where their areas lie. -/
theorem slot_signed_by_itself (id : SlotId) (length : image.length = image'.length)
    (body : ∀ a, layout.bodyArea id = some a → ∀ i, a.Covers i → image[i]? = image'[i]?)
    (chain : ∀ a, layout.chainArea id = some a → ∀ i, a.Covers i → image[i]? = image'[i]?)
    (integrity : s.integrityIn layout image = s.integrityIn layout image')
    (signed : s.sign layout image = .ok report after)
    (signed' : s.sign layout image' = .ok report' after') :
    ∃ chains chains', s.Writes layout image chains report after ∧
      s.Writes layout image' chains' report' after' ∧
      chains.filter (·.1.id = id) = chains'.filter (·.1.id = id) ∧
      report.slots.filter (·.id = id) = report'.slots.filter (·.id = id) ∧
      ∀ slot, id ∈ layout.ids → layout.locate id = some slot → ∃ built ∈ chains, built.1.id = id := by
  obtain ⟨chains, writes⟩ := writes_of_sign signed
  obtain ⟨chains', writes'⟩ := writes_of_sign signed'
  have same := filter_plan_congr (fun a ha => Bytes.slice_congr length (body a ha))
    (fun a ha => Bytes.slice_congr length (chain a ha)) integrity writes.planned writes'.planned
  refine ⟨chains, chains', writes, writes', same, ?_, ?_⟩
  · rw [writes.entries_of_id, writes'.entries_of_id, same]
  · intro slot hid hl
    exact exists_mem_plan_of_locate writes.planned hid hl

/-- Two slots whose trust chain areas overlap, as do their bodies. -/
def overlappingSlots : SlotLayout where
  ids := SlotId.all
  bodyName _ := "body"
  chainName _ := "chain"
  chainArea
    | .a => some ⟨0, 126⟩
    | .b => some ⟨100, 126⟩
  bodyArea
    | .a => some ⟨254, 6⟩
    | .b => some ⟨252, 4⟩

/-- Whatever the first slot holds at the end of its body, and although its chain is written into the area
of the second, the second slot gets one chain. -/
theorem overlapped_slot_signed_by_itself :
    ∃ report report' after after', ∃ chains chains' : List (Slot × Bytes),
    sampleSigner.sign overlappingSlots (List.replicate 256 0xff ++ [1, 2, 3, 4]) = .ok report after ∧
    sampleSigner.sign overlappingSlots (List.replicate 256 0xff ++ [5, 6, 7, 9]) = .ok report' after' ∧
    report.slots = chains.map SignedSlot.ofBuilt ∧ report'.slots = chains'.map SignedSlot.ofBuilt ∧
    chains.filter (·.1.id = .b) = chains'.filter (·.1.id = .b) ∧
    report.slots.filter (·.id = .b) = report'.slots.filter (·.id = .b) ∧
    ∃ built ∈ chains, built.1.id = .b := by
  obtain ⟨report, after, signed⟩ : ∃ report after, sampleSigner.sign overlappingSlots
      (List.replicate 256 0xff ++ [1, 2, 3, 4]) = .ok report after :=
    run'_isSome_iff.1 (by decide +kernel)
  obtain ⟨report', after', signed'⟩ : ∃ report after, sampleSigner.sign overlappingSlots
      (List.replicate 256 0xff ++ [5, 6, 7, 9]) = .ok report after :=
    run'_isSome_iff.1 (by decide +kernel)
  have agree : ∀ i < 256, (List.replicate 256 (0xff : UInt8) ++ [1, 2, 3, 4])[i]?
      = (List.replicate 256 (0xff : UInt8) ++ [5, 6, 7, 9])[i]? := by
    intro i hi
    have inside : i < (List.replicate 256 (0xff : UInt8)).length := by rwa [List.length_replicate]
    rw [List.getElem?_append_left inside, List.getElem?_append_left inside]
  have integrity : sampleSigner.integrityIn overlappingSlots (List.replicate 256 0xff ++ [1, 2, 3, 4])
      = sampleSigner.integrityIn overlappingSlots (List.replicate 256 0xff ++ [5, 6, 7, 9]) := by
    unfold integrityIn
    rw [integrityMode_of_raw rfl (by decide), integrityMode_of_raw rfl (by decide)]
  obtain ⟨chains, chains', writes, writes', same, entries, there⟩ :=
    slot_signed_by_itself .b
      (by simp only [List.length_append, List.length_cons, List.length_nil])
      (fun a ha i hi => by cases ha; exact agree i hi.2)
      (fun a ha i hi => by cases ha; exact agree i (hi.2.trans (by decide)))
      integrity signed signed'
  exact ⟨report, report', after, after', chains, chains', signed, signed', writes.entries,
    writes'.entries, same, entries, there _ (by decide) rfl⟩

end Signer
end VerifiedBoot
