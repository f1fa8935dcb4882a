/-
Firmware images from signing to verification. Signer and verifier look for the slots of an image each
in its own way: the signer asks whether a slot has a body and then insists on a trust chain area for
it, the verifier takes the bytes of every area that has some. On an image that was signed they agree:
the slots of the report are trusted under the root key, and the others are missing to the verifier.
-/
import VerifiedBoot.Proofs.Image.Independence
import VerifiedBoot.Proofs.Signing.Software

namespace VerifiedBoot
namespace FirmwareImage
variable {f : FirmwareImage} {c : FirmwareComponent} {bytes : Bytes}

/-! ## Areas -/

/-- The verifier finds the bytes of an area that the signer takes to be there. -/
theorem holds_of_slice {a : Area} {bs : Bytes} (ha : (f.area c).filter (!·.isEmpty) = some a)
    (hs : a.slice f.bytes = some bs) : f.Holds c bs := by
  rw [Option.filter_eq_some_iff, Area.isEmpty_eq_false] at ha
  exact ⟨a, ha.1, ha.2, hs⟩

/-- The verifier finds no bytes of an area that the signer takes to be missing. -/
theorem lacks_of_missing (ha : (f.area c).filter (!·.isEmpty) = none) : f.Lacks c := by
  intro a harea
  have empty := Option.filter_eq_none_iff.1 ha a harea
  rw [Area.isEmpty_eq_false, not_not] at empty
  exact .inl empty

/-- What is said of a GBB depends on the bytes of its area alone. -/
theorem gbb_of_slice {bytes' : Bytes}
    (h : ∀ a, f.area .gbb = some a → a.slice bytes' = a.slice f.bytes) :
    ({ f with bytes := bytes' } : FirmwareImage).gbb = f.gbb := by
  unfold gbb
  cases harea : (f.area .gbb).filter (!·.isEmpty) with
  | none => rfl
  | some a =>
    simp only [h a (Option.filter_eq_some_iff.1 harea).1]

theorem sign_of_parse {s : Signer} (h : parse bytes = .ok f) :
    sign s bytes = s.sign f.layout bytes := by
  unfold sign
  rw [run_get_bind, h]

/-! ## From signing to verification -/

/-- The trust chain area of each located slot has no byte in common with the GBB, with a body or with
the trust chain area of the other slot. -/
structure ChainsApart (f : FirmwareImage) : Prop where
  slots : f.layout.ChainsApart
  gbb : ∀ id slot area, f.layout.locate id = some slot → f.area .gbb = some area →
    slot.chain.Disjoint area

variable {s : Signer} {root : PackedKey} {image' : Bytes} {report : SignReport}

/-- The key that an image is verified with is not written over. -/
theorem rootKey?_of_sign {options : VerifyOptions} (parsed : parse bytes = .ok f)
    (apart : f.ChainsApart) (signed : s.sign f.layout bytes = .ok report image')
    (rootKey : options.rootKey = some root ∨
      options.rootKey = none ∧ ∃ gbb, f.gbb = .ok gbb ∧ gbb.rootKey = some root) :
    ({ f with bytes := image' } : FirmwareImage).rootKey? options = some root := by
  unfold rootKey?
  rcases rootKey with given | ⟨none, gbb, hgbb, hroot⟩
  · rw [given]
    rfl
  · have kept : ({ f with bytes := image' } : FirmwareImage).gbb = f.gbb := by
      refine gbb_of_slice fun a ha => ?_
      obtain ⟨map, -, rfl⟩ := parse_eq_ok.1 parsed
      exact Signer.slice_of_sign signed fun id _ slot hl => apart.gbb id slot a hl ha
    rw [none, kept, hgbb]
    exact hroot

/-- A slot of the report is trusted, with the facts of its entry. -/
theorem judgeSlot_of_mem_report {source : ChainSource} {options : VerifyOptions}
    (made : source.keyblock = .ok s.keyblock)
    (algorithm : s.keyblock.dataKey.algorithm = s.dataKey.algorithm.raw)
    (software : s.primitives = .software) (under : s.SoftwareTrusted root)
    (apart : f.layout.ChainsApart) (noMinimum : options.minVersion = none)
    (noMode : options.bootMode = none) (signed : s.sign f.layout f.bytes = .ok report image')
    (rootKey : ({ f with bytes := image' } : FirmwareImage).rootKey? options = some root)
    {entry : SignedSlot} (hentry : entry ∈ report.slots) :
    ({ f with bytes := image' } : FirmwareImage).judgeSlot options s.payload entry.id
      = .trusted (s.factsOf entry) := by
  have trusted := under.trustedUnder_of_sign software apart signed hentry
  have allowed : options.bootMode.all s.keyblock.allows = true := by
    rw [noMode]
    rfl
  obtain ⟨slot, area, body, hl, harea, hbody, judged⟩ :=
    Signer.trusted_of_mem_report made algorithm apart trusted noMinimum allowed signed hentry
  -- the areas of the slot are those that the verifier looks at
  obtain ⟨_, hchainArea, _, hbodyArea, rfl⟩ := SlotLayout.locate_eq_some.1 hl
  have hchain : ({ f with bytes := image' } : FirmwareImage).Holds (.vblock entry.id) area :=
    holds_of_slice hchainArea harea
  have hbody : ({ f with bytes := image' } : FirmwareImage).Holds (.body entry.id) body :=
    holds_of_slice hbodyArea hbody
  rw [← judged, software, judgeSlot_of_holds hchain hbody, rootKey]
  rfl

/-- A slot that is not in the report is missing. -/
theorem judgeSlot_of_not_mem_report {options : VerifyOptions} {payload : PayloadFormat} {id : SlotId}
    (signed : s.sign f.layout f.bytes = .ok report image')
    (unsigned : ∀ entry ∈ report.slots, entry.id ≠ id) :
    ({ f with bytes := image' } : FirmwareImage).judgeSlot options payload id = .missing := by
  obtain ⟨chains, hplan, -, -, entries⟩ := Signer.sign_ok signed
  have hid : id ∈ f.layout.ids := by
    show id ∈ SlotId.all
    cases id <;> decide
  have noBody : f.layout.presentBody id = none := by
    refine Signer.presentBody_of_plan hplan hid fun built hb => ?_
    exact unsigned (SignedSlot.ofBuilt built) (entries ▸ List.mem_map_of_mem hb)
  exact judgeSlot_of_lacks (.inr (lacks_of_missing noBody))

/-- A firmware image that was signed is good: every slot of the report, and slot A is one, is trusted
with the facts of the report, and every other slot is missing. -/
theorem signed_firmware_trusted {source : ChainSource} {dataKey : SigningKey} {options : SignOptions}
    {payload : PayloadFormat} {verification : VerifyOptions} (parsed : parse bytes = .ok f)
    (made : Signer.make source dataKey options .software payload = .ok s)
    (under : s.SoftwareTrusted root) (apart : f.ChainsApart)
    (rootKey : verification.rootKey = some root ∨
      verification.rootKey = none ∧ ∃ gbb, f.gbb = .ok gbb ∧ gbb.rootKey = some root)
    (noMinimum : verification.minVersion = none) (noMode : verification.bootMode = none)
    (signed : sign s bytes = .ok report image') :
    (∃ entry ∈ report.slots, entry.id = .a) ∧
    (∀ entry ∈ report.slots,
      (({ f with bytes := image' } : FirmwareImage).verify verification payload).verdict entry.id
        = .trusted {
          version := entry.version
          flags := entry.flags
          keyVersion := s.keyblock.dataKey.version
          bodyLength := entry.bodyLength
          keyblockFlags := s.keyblock.flags
          dataKey := s.keyblock.dataKey
          subkey := options.subkey }) ∧
    (∀ id, (∀ entry ∈ report.slots, entry.id ≠ id) →
      (({ f with bytes := image' } : FirmwareImage).verify verification payload).verdict id
        = .missing) ∧
    (({ f with bytes := image' } : FirmwareImage).verify verification payload).isSuccess = true := by
  obtain ⟨hk, algorithm, rfl, software, rfl⟩ := Signer.make_ok made
  rw [sign_of_parse parsed] at signed
  have key := rootKey?_of_sign parsed apart signed rootKey
  obtain ⟨map, -, rfl⟩ := parse_eq_ok.1 parsed
  have trusted : ∀ entry ∈ report.slots, (({ ofMap map bytes with bytes := image' } :
      FirmwareImage).verify verification s.payload).verdict entry.id = .trusted (s.factsOf entry) := by
    intro entry hentry
    rw [verify_eq]
    exact judgeSlot_of_mem_report hk algorithm software under apart.slots noMinimum noMode signed key
      hentry
  have missing : ∀ id, (∀ entry ∈ report.slots, entry.id ≠ id) → (({ ofMap map bytes with
      bytes := image' } : FirmwareImage).verify verification s.payload).verdict id = .missing := by
    intro id unsigned
    rw [verify_eq]
    exact judgeSlot_of_not_mem_report signed unsigned
  have first : ∃ entry ∈ report.slots, entry.id = .a := by
    obtain ⟨chains, hplan, -, -, entries⟩ := Signer.sign_ok signed
    obtain ⟨built, hb, ha⟩ := Signer.exists_first_of_plan hplan rfl
    exact ⟨SignedSlot.ofBuilt built, entries ▸ List.mem_map_of_mem hb, ha⟩
  refine ⟨first, trusted, missing, ?_⟩
  obtain ⟨entry, hentry, ha⟩ := first
  have slotA := trusted entry hentry
  rw [ha] at slotA
  unfold FirmwareReport.isSuccess
  by_cases second : ∃ entry ∈ report.slots, entry.id = .b
  · obtain ⟨entry', hentry', hb⟩ := second
    have slotB := trusted entry' hentry'
    rw [hb] at slotB
    rw [slotA, slotB]
    rfl
  · have slotB := missing .b fun entry' hentry' hb => second ⟨entry', hentry', hb⟩
    rw [slotA, slotB]
    rfl

/-- The bytes of an image with a root key, one slot, and a second body that does not fit. -/
def sampleBytes : Bytes :=
  let map := FlashMap.build "FMAP" 0 673
    [.named "GBB" 224 85, .named "VBLOCK_A" 309 360, .named "FW_MAIN_A" 669 4,
      .named "FW_MAIN_B" 0x3000 0x2000]
  map.encode.toOption.getD []
    ++ (Gbb.build "" 0 (some Signer.softwareRootKey) none 85).toOption.getD []
    ++ List.replicate 360 0xff ++ [1, 2, 3, 4]

def sample : FirmwareImage where
  bytes := sampleBytes
  area
    | .gbb => some ⟨224, 85⟩
    | .body .a => some ⟨669, 4⟩
    | .body .b => some ⟨0, 0⟩
    | .vblock .a => some ⟨309, 360⟩
    | .vblock .b => none

theorem parse_sampleBytes : parse sampleBytes = .ok sample :=
  parse_of_areas (by decide +kernel)

theorem chainsApart_sample : sample.ChainsApart := by
  have located : ∀ id slot, sample.layout.locate id = some slot →
      id = .a ∧ slot = .ofAreas .a ⟨669, 4⟩ ⟨309, 360⟩ := by
    intro id slot h
    cases id with
    | a => exact ⟨rfl, (Option.some.inj h).symm⟩
    | b => cases h
  constructor
  · intro id _ id' _ slot slot' h h'
    obtain ⟨rfl, rfl⟩ := located id slot h
    obtain ⟨rfl, rfl⟩ := located id' slot' h'
    exact ⟨Area.disjoint_of_le (by decide), fun other => absurd rfl other⟩
  · intro id slot area h harea
    obtain ⟨rfl, rfl⟩ := located id slot h
    obtain rfl := Option.some.inj harea
    exact Area.disjoint_of_le (by decide)

/-- The slot of the sample image is signed; then it is trusted under the root key of the image, and the
second slot is missing. -/
theorem sample_firmware_trusted : ∃ report image',
    sign Signer.softwareSigner sampleBytes = .ok report image' ∧
    report.slots = [⟨.a, 3, 8, 4, 358, false⟩] ∧
    (({ sample with bytes := image' } : FirmwareImage).verify .none .raw).verdict .a
      = .trusted ⟨3, 8, 5, 4, .all, Signer.softwareKeyblock.dataKey, some ⟨1, 2, [6, 6]⟩⟩ ∧
    (({ sample with bytes := image' } : FirmwareImage).verify .none .raw).verdict .b = .missing ∧
    (({ sample with bytes := image' } : FirmwareImage).verify .none .raw).isSuccess = true := by
  have rootKey : ∃ gbb, sample.gbb = .ok gbb ∧ gbb.rootKey = some Signer.softwareRootKey := by
    have read : (sample.gbb.map (·.rootKey)) = .ok (some Signer.softwareRootKey) := by decide +kernel
    exact map_eq_ok.1 read
  have run : ((sign Signer.softwareSigner).run' sampleBytes).map (·.slots)
      = some [⟨.a, 3, 8, 4, 358, false⟩] := by
    decide +kernel
  obtain ⟨report, image', signed, slots⟩ := run'_map_eq_some.1 run
  obtain ⟨-, trusted, missing, success⟩ := signed_firmware_trusted parse_sampleBytes
    Signer.make_softwareSigner Signer.softwareTrusted_softwareSigner chainsApart_sample
    (.inr ⟨(rfl : VerifyOptions.none.rootKey = none), rootKey⟩) rfl rfl signed
  rw [slots] at trusted missing
  refine ⟨report, image', signed, slots, ?_, ?_, success⟩
  · exact trusted _ List.mem_cons_self
  · refine missing .b fun entry hentry => ?_
    rw [List.mem_singleton.1 hentry]
    decide

end FirmwareImage
end VerifiedBoot
