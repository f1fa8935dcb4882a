/-
Where the map of an image is found after the image is signed. A signing that writes over no byte of
the map leaves it where it is, but the chains hold keys that the caller gave, and a key may hold what
reads as a map. So the map is found again unless a header that stands before it shares a byte with a
chain that was written.
-/
import VerifiedBoot.Proofs.Image.Firmware
import VerifiedBoot.Proofs.Image.MapSearch

namespace VerifiedBoot

/-! ## Signed images -/

/-- An area with bytes that starts behind the start of another one, and has no byte in common with
it, starts where the other one ends or later. -/
theorem Area.stop_le_of_disjoint {a b : Area} (apart : a.Disjoint b) (le : b.offset ≤ a.offset)
    (bytes : a.length ≠ 0) : b.offset + b.length ≤ a.offset := by
  by_contra overlap
  exact apart a.offset ⟨le_rfl, by omega⟩ ⟨le, by omega⟩

theorem SlotLayout.chain_length_ne_zero {layout : SlotLayout} {id : SlotId} {slot : Slot}
    (h : layout.locate id = some slot) : slot.chain.length ≠ 0 := by
  obtain ⟨chain, hchain, body, -, rfl⟩ := locate_eq_some.1 h
  exact Area.isEmpty_eq_false.1 (Option.filter_eq_some_iff.1 hchain).2

namespace Signer
variable {s : Signer} {layout : SlotLayout} {image image' : Bytes} {report : SignReport}

theorem length_of_sign (h : s.sign layout image = .ok report image') :
    image'.length = image.length := by
  obtain ⟨chains, -, fits, rfl, -⟩ := sign_ok h
  exact Bytes.length_overwriteAll (writes_fit fits)

/-- A part that has no byte in common with a chain that was written is as before. -/
theorem slice_of_written_apart (h : s.sign layout image = .ok report image') {a : Area}
    (apart : ∀ entry ∈ report.slots, ∀ slot, layout.locate entry.id = some slot →
      (Area.mk slot.chain.offset entry.chainLength).Disjoint a) :
    a.slice image' = a.slice image := by
  obtain ⟨chains, hplan, fits, rfl, entries⟩ := sign_ok h
  obtain ⟨_, all⟩ := built_of_mem_plan hplan
  refine Bytes.slice_overwriteAll_of_disjoint (writes_fit fits) fun w hw => ?_
  obtain ⟨built, hb, rfl⟩ := List.mem_map.1 hw
  obtain ⟨-, slot, hl, hbuilt, -⟩ := all built hb
  have written := apart (SignedSlot.ofBuilt built) (entries ▸ List.mem_map_of_mem hb) slot hl
  rw [← hbuilt.chain] at written
  exact written

end Signer

namespace FirmwareImage
variable {s : Signer} {image image' : Bytes} {report : SignReport} {map : FlashMap}

/-- A signing whose trust chain areas have no byte in common with the map leaves the map to be read
where it was. It is also what is found in the signed image, and gives all components the areas that
they had, unless a map before it is found whose header has a byte in common with a chain that was
written. No such map is found if all chains are written behind the map. -/
theorem map_found_after_sign (found : FlashMap.find image = some map)
    (signed : sign s image = .ok report image')
    (apart : ∀ id slot, (ofMap map image).layout.locate id = some slot →
      slot.chain.Disjoint map.extent) :
    FlashMap.parseAt image' map.position = .ok map ∧
    ∃ map', FlashMap.find image' = some map' ∧
      (map' = map ∧ parse image' = .ok { ofMap map image with bytes := image' } ∨
        map'.position < map.position ∧ ∃ entry ∈ report.slots, ∃ slot,
          (ofMap map image).layout.locate entry.id = some slot ∧
          ¬ (Area.mk slot.chain.offset entry.chainLength).Disjoint
            (FlashMap.headerAt map'.position)) ∧
      ((∀ id slot, (ofMap map image).layout.locate id = some slot →
        map.position ≤ slot.chain.offset) → map' = map) := by
  rw [sign_of_parse (parse_eq_ok.2 ⟨map, found, rfl⟩)] at signed
  have length := Signer.length_of_sign signed
  have same : map.extent.slice image' = map.extent.slice image :=
    Signer.slice_of_sign signed fun id _ slot hl => apart id slot hl
  have read := (FlashMap.find_eq_some_iff.1 found).1
  obtain ⟨map', found', which⟩ := FlashMap.find_of_extent found length same
  refine ⟨FlashMap.parseAt_of_extent read same, map', found', ?_, ?_⟩
  · rcases which with rfl | ⟨before, changed⟩
    · refine .inl ⟨rfl, parse_eq_ok.2 ⟨map', found', ?_⟩⟩
      rw [ofMap, ofMap, length]
    · refine .inr ⟨before, ?_⟩
      by_contra none
      refine changed (Signer.slice_of_written_apart signed fun entry he slot hl => ?_)
      by_contra shared
      exact none ⟨entry, he, slot, hl, shared⟩
  · intro behind
    rcases which with rfl | ⟨before, changed⟩
    · rfl
    · -- a chain behind the map starts where the map ends, at the least, and a header before the map
      -- ends before that
      refine absurd (Signer.slice_of_sign signed fun id _ slot hl => ?_) changed
      have start := Area.stop_le_of_disjoint (apart id slot hl) (behind id slot hl)
        (SlotLayout.chain_length_ne_zero hl)
      refine Area.disjoint_of_le (.inr ?_)
      show map'.position + FlashMap.headerSize ≤ slot.chain.offset
      unfold FlashMap.extent FlashMap.encodedSize at start
      simp only at start
      omega

/-- The chain of the sample image is written behind its map, which is found again and gives the signed
image the areas that it had. -/
theorem sample_map_found_after_sign : ∃ map report image',
    FlashMap.find sampleBytes = some map ∧ map.extent = ⟨0, 224⟩ ∧
    sign Signer.sampleSigner sampleBytes = .ok report image' ∧
    (∀ id slot, (ofMap map sampleBytes).layout.locate id = some slot →
      slot.chain.Disjoint map.extent) ∧
    FlashMap.find image' = some map ∧ parse image' = .ok { sample with bytes := image' } := by
  obtain ⟨map, found, hsample⟩ := parse_eq_ok.1 parse_sampleBytes
  have extent : map.extent = ⟨0, 224⟩ := by
    have computed : (FlashMap.find sampleBytes).map (·.extent) = some ⟨0, 224⟩ := by decide +kernel
    rw [found] at computed
    exact Option.some.inj computed
  have located : ∀ id slot, (ofMap map sampleBytes).layout.locate id = some slot →
      slot.chain = ⟨309, 360⟩ := by
    rw [hsample]
    intro id slot h
    cases id with
    | a => rw [← Option.some.inj h]; rfl
    | b => cases h
  have apart : ∀ id slot, (ofMap map sampleBytes).layout.locate id = some slot →
      slot.chain.Disjoint map.extent := by
    intro id slot h
    rw [located id slot h, extent]
    exact Area.disjoint_of_le (by decide)
  have run : ((sign Signer.sampleSigner).run' sampleBytes).map (·.slots)
      = some [⟨.a, 7, 0, 4, 124, false⟩] := by
    decide +kernel
  obtain ⟨report, image', signed, -⟩ := run'_map_eq_some.1 run
  obtain ⟨-, map', found', which, behind⟩ := map_found_after_sign found signed apart
  obtain rfl : map' = map := behind fun id slot h => by
    rw [located id slot h, show map.position = 0 from congrArg Area.offset extent]
    exact Nat.zero_le _
  refine ⟨map', report, image', found, extent, signed, apart, found', ?_⟩
  rw [← hsample]
  rcases which with ⟨-, parsed⟩ | ⟨before, -⟩
  · exact parsed
  · exact absurd before (Nat.lt_irrefl _)

/-! ## Maps that keys hold -/

/-- The encoding of a map without areas. -/
def emptyMapBytes : Bytes := (FlashMap.build "" 0 0 []).encode.toOption.getD []

/-- Puts a key into the chains that holds a map. -/
def mapSigner : Signer :=
  { Signer.sampleSigner with options := { SignOptions.none with subkey := some ⟨1, 1, emptyMapBytes⟩ } }

/-- The bytes of an image whose map stands behind the trust chain area of its slot. -/
def lateMapBytes : Bytes :=
  let map := FlashMap.build "FMAP" 0 344 [.named "VBLOCK_A" 0 200, .named "FW_MAIN_A" 200 4]
  List.replicate 200 0xff ++ [1, 2, 3, 4] ++ map.encode.toOption.getD []

/-- The trust chain area lies before the map and does not touch it. The map in the key is written into
that area, and is found in the signed image. -/
theorem map_in_key_found_after_sign : ∃ map map' report image',
    Signer.make (.reuse TrustChain.sampleBytes) Signer.sampleSigner.dataKey mapSigner.options
      Signer.sampleSigner.primitives .raw = .ok mapSigner ∧
    FlashMap.find lateMapBytes = some map ∧
    sign mapSigner lateMapBytes = .ok report image' ∧
    (∀ id slot, (ofMap map lateMapBytes).layout.locate id = some slot →
      slot.chain.Disjoint map.extent) ∧
    FlashMap.find image' = some map' ∧ map'.position < map.position ∧ map'.areas = [] := by
  have before : (FlashMap.find lateMapBytes).map (fun map => (map.extent,
      (ofMap map lateMapBytes).area (.vblock .a), (ofMap map lateMapBytes).area (.vblock .b)))
      = some (⟨204, 140⟩, some ⟨0, 200⟩, none) := by
    decide +kernel
  have after : ((sign mapSigner >>= fun _ => FlashMap.find <$> get).run' lateMapBytes).map
      (Option.map fun map => (map.position, map.areas)) = some (some (122, [])) := by
    decide +kernel
  obtain ⟨map, found, facts⟩ := Option.map_eq_some_iff.1 before
  obtain ⟨extent, facts⟩ := Prod.mk.inj facts
  obtain ⟨vblockA, vblockB⟩ := Prod.mk.inj facts
  obtain ⟨_, image', run, read⟩ := run'_map_eq_some.1 after
  obtain ⟨report, _, signed, hget⟩ := run_bind_eq_ok.1 run
  cases hget
  obtain ⟨map', found', facts'⟩ := Option.map_eq_some_iff.1 read
  obtain ⟨position, areas⟩ := Prod.mk.inj facts'
  have apart : ∀ id slot, (ofMap map lateMapBytes).layout.locate id = some slot →
      slot.chain.Disjoint map.extent := by
    intro id slot h
    obtain ⟨chain, hchain, body, -, rfl⟩ := SlotLayout.locate_eq_some.1 h
    have there := (Option.filter_eq_some_iff.1 hchain).1
    cases id with
    | a =>
      obtain rfl := Option.some.inj (vblockA.symm.trans there)
      rw [extent]
      exact Area.disjoint_of_le (.inl (by decide : 0 + 200 ≤ 204))
    | b => cases vblockB.symm.trans there
  have earlier : map'.position < map.position := by
    rw [position, show map.position = 204 from congrArg Area.offset extent]
    decide
  exact ⟨map, map', report, image', Signer.make_reuse_sample _ _ _, found, signed, apart, found',
    earlier, areas⟩

end FirmwareImage
end VerifiedBoot
