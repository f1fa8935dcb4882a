/-
Read-write images that are signed again. A signing without a size takes the size from the signature
that it finds, and all data if there is none that can be read and fits. The signature that a signing
wrote is kept apart from the data and can be read back, so it is found by the next signing, and it
fits: every later signing covers the same bytes, whoever signs. That is the invariant of a run of
signings. The same signer would write the same bytes again.
-/
import VerifiedBoot.Proofs.Image.MapSearch
import VerifiedBoot.Proofs.Image.ReadWriteFrame

namespace VerifiedBoot

/-! ## Areas apart -/

namespace RwLayout

/-- The areas lie in an image of `size` bytes, and have no byte in common. -/
structure Apart (l : RwLayout) (size : Nat) : Prop where
  inside : ∀ a ∈ l.areas, a.Inside size
  data : l.signature.Disjoint l.data
  key : ∀ area, l.key = some area → area.Disjoint l.signature ∧ area.Disjoint l.data

theorem Apart.spares_data {l : RwLayout} {size : Nat} (h : l.Apart size) : l.Spares l.data :=
  ⟨h.data, fun area hkey => (h.key area hkey).2⟩

/-- The map and the length of an image decide its layout. -/
theorem ofImage_congr {image image' : Bytes} (map : FlashMap.find image' = FlashMap.find image)
    (length : image'.length = image.length) (signatureSize : Nat) :
    ofImage image' signatureSize = ofImage image signatureSize := by
  unfold ofImage
  rw [map, length]

end RwLayout

namespace RwImage
variable {i i' : RwImage} {bytes bytes' after : Bytes} {layout : RwLayout} {key : SigningKey}
  {options options' : RwSignOptions} {report : RwSignReport} {signatureBytes : Bytes}
  {keyBytes : Option (Area × Bytes)} {data : Bytes}

theorem apart_of_parse {signatureSize : Nat} (parsed : parse bytes signatureSize = .ok i)
    (apart : i.KeyApart) : i.layout.Apart bytes.length := by
  obtain ⟨rfl, layout⟩ := parse_eq_ok.1 parsed
  exact ⟨fun a ha => RwLayout.area_inside layout ha, RwLayout.disjoint_of_ofImage layout, apart⟩

/-! ## Plans that are made again -/

theorem dataSize_of_plan (h : i.plan key options = .ok (report, signatureBytes, keyBytes))
    (hdata : i.layout.data.slice i.bytes = some data) :
    report.dataSize = i.sizeToSign options.dataSize data.length := by
  simp only [plan, part_eq_ok.2 hdata, bind_eq_ok, refuse_eq_ok, pure_eq_ok, Prod.mk.injEq] at h
  obtain ⟨_, ⟨⟩, -, _, -, _, -, _, -, rfl, -, -⟩ := h
  rfl

/-- The signed bytes and the version of the key decide what is planned. -/
theorem plan_congr (layout : i'.layout = i.layout) (version : options'.keyVersion = options.keyVersion)
    (hdata : i.layout.data.slice i.bytes = some data)
    (hdata' : i.layout.data.slice i'.bytes = some data)
    (size : i'.sizeToSign options'.dataSize data.length = i.sizeToSign options.dataSize data.length) :
    i'.plan key options' = i.plan key options := by
  have there := part_eq_ok.2 hdata
  have there' : i'.part i.layout.data = .ok data := part_eq_ok.2 hdata'
  simp only [plan, layout, version, there, there', bind, Except.bind, size]

/-- A signature that can be read and fits gives the size if none is asked for. -/
theorem sizeToSign_of_signature {s : Signature} {available : Nat} (read : i.signature = .ok s)
    (fits : s.dataSize.toNat ≤ available) : i.sizeToSign none available = s.dataSize.toNat := by
  unfold sizeToSign
  rw [read]
  exact if_pos fits

/-! ## What a signing leaves -/

/-- A signing that fails has written nothing. -/
theorem signIn_error {e : Error} (apart : layout.Apart bytes.length)
    (h : signIn layout key options bytes = .error e after) : after = bytes := by
  cases hplan : (RwImage.mk bytes layout).plan key options with
  | error e' =>
    rw [signIn_of_plan_error (i := ⟨bytes, layout⟩) hplan] at h
    cases h
    rfl
  | ok plan =>
    rw [signIn_of_plan (i := ⟨bytes, layout⟩) apart.inside hplan] at h
    cases h

/-- What a signing has left of an image: its signature says that the first `n` bytes of the data are
signed, there are so many, and nothing but signature and key is different from the original. -/
structure SignedRange (layout : RwLayout) (original : Bytes) (n : Nat) (bytes : Bytes) : Prop where
  length : bytes.length = original.length
  kept : ∀ a, layout.Spares a → a.slice bytes = a.slice original
  fits : ∃ data, layout.data.slice original = some data ∧ n ≤ data.length
  recorded : ∃ s, (RwImage.mk bytes layout).signature = .ok s ∧ s.dataSize.toNat = n

/-- A signing leaves the size that it reports in the signature. -/
theorem signedRange_of_signIn (apart : layout.Apart bytes.length)
    (h : signIn layout key options bytes = .ok report bytes') :
    SignedRange layout bytes report.dataSize bytes' := by
  obtain ⟨signatureBytes, keyBytes, hplan, fits, rfl⟩ := signIn_ok h
  have planned := plan_ok hplan
  obtain ⟨data, hdata, room, made⟩ := planned.signed
  obtain ⟨-, read⟩ := planned.signature_written fits apart.data apart.key
  refine ⟨Bytes.length_overwriteAll fits, fun a => planned.slice_kept fits, ⟨data, hdata, room⟩, ?_⟩
  exact ⟨report.signature, read, by rw [made.dataSize, List.length_take_of_le room]⟩

/-- The signing after that takes the same size, if it is given none. -/
theorem SignedRange.dataSize_eq {original : Bytes} {n : Nat} {version : UInt32}
    (range : SignedRange layout original n bytes) (apart : layout.Apart bytes.length)
    (h : signIn layout key ⟨none, version⟩ bytes = .ok report bytes') : report.dataSize = n := by
  obtain ⟨data, hdata, room⟩ := range.fits
  obtain ⟨s, read, rfl⟩ := range.recorded
  obtain ⟨signatureBytes, keyBytes, hplan, -, -⟩ := signIn_ok h
  have there : layout.data.slice bytes = some data := (range.kept _ apart.spares_data).trans hdata
  exact (dataSize_of_plan hplan there).trans (sizeToSign_of_signature read room)

/-- A second signing with the same key finds all that it writes in place. -/
theorem signIn_again (apart : layout.Apart bytes.length)
    (h : signIn layout key options bytes = .ok report bytes') :
    signIn layout key ⟨none, options.keyVersion⟩ bytes' = .ok report bytes' := by
  have range := signedRange_of_signIn apart h
  obtain ⟨data, hdata, room⟩ := range.fits
  obtain ⟨s, read, size⟩ := range.recorded
  have there : layout.data.slice bytes' = some data := (range.kept _ apart.spares_data).trans hdata
  obtain ⟨signatureBytes, keyBytes, hplan, fits, written⟩ := signIn_ok h
  have planned := plan_ok hplan
  have sizes : (RwImage.mk bytes' layout).sizeToSign none data.length
      = (RwImage.mk bytes layout).sizeToSign options.dataSize data.length := by
    rw [sizeToSign_of_signature read (size ▸ room), size, ← dataSize_of_plan hplan hdata]
  have same : (RwImage.mk bytes' layout).plan key ⟨none, options.keyVersion⟩
      = (RwImage.mk bytes layout).plan key options := plan_congr rfl rfl hdata there sizes
  have again := same.trans hplan
  have inside : ∀ a ∈ layout.areas, a.Inside bytes'.length := by
    rw [range.length]
    exact apart.inside
  rw [signIn_of_plan (i := ⟨bytes', layout⟩) inside again]
  refine congrArg _ (Bytes.overwriteAll_of_in_place fun w hw => ?_)
  rcases planned.area_of_mem hw with ⟨rfl, -⟩ | ⟨area, content, rfl, hkey, rfl, harea⟩
  · have inPlace := planned.signature_in_place fits fun area hkey => (apart.key area hkey).1
    rw [← written] at inPlace
    rw [(filled_ok planned.signature).1]
    exact inPlace
  · have inPlace := planned.key_in_place fits
    rw [← written, ← harea] at inPlace
    exact inPlace

/-! ## Signing again and again -/

/-- Signings of an image one after another, with one layout and any keys, that are given no size: what
those that succeed report, and the image in the end. -/
inductive Resigned (layout : RwLayout) : Bytes → List RwSignReport → Bytes → Prop
  | nothing {bytes : Bytes} : Resigned layout bytes [] bytes
  | refused {bytes after bytes' : Bytes} {key : SigningKey} {version : UInt32} {e : Error}
      {reports : List RwSignReport} (h : signIn layout key ⟨none, version⟩ bytes = .error e after)
      (next : Resigned layout after reports bytes') : Resigned layout bytes reports bytes'
  | signed {bytes after bytes' : Bytes} {key : SigningKey} {version : UInt32} {report : RwSignReport}
      {reports : List RwSignReport} (h : signIn layout key ⟨none, version⟩ bytes = .ok report after)
      (next : Resigned layout after reports bytes') : Resigned layout bytes (report :: reports) bytes'

/-- Each signing leaves the size as it was recorded. -/
theorem SignedRange.of_signIn {original : Bytes} {n : Nat} {version : UInt32}
    (range : SignedRange layout original n bytes) (apart : layout.Apart original.length)
    (h : signIn layout key ⟨none, version⟩ bytes = .ok report bytes') :
    report.dataSize = n ∧ SignedRange layout original n bytes' := by
  rw [← range.length] at apart
  have size := range.dataSize_eq apart h
  have step := signedRange_of_signIn apart h
  rw [size] at step
  exact ⟨size, step.length.trans range.length,
    fun a spared => (step.kept a spared).trans (range.kept a spared), range.fits, step.recorded⟩

/-- So does a run of signings. -/
theorem SignedRange.of_resigned {original : Bytes} {n : Nat} {reports : List RwSignReport}
    (range : SignedRange layout original n bytes) (apart : layout.Apart original.length)
    (h : Resigned layout bytes reports bytes') :
    (∀ r ∈ reports, r.dataSize = n) ∧ SignedRange layout original n bytes' := by
  induction h with
  | nothing => exact ⟨nofun, range⟩
  | refused h next ih =>
    obtain rfl := signIn_error (range.length.symm ▸ apart) h
    exact ih range
  | signed h next ih =>
    obtain ⟨size, range⟩ := range.of_signIn apart h
    obtain ⟨sizes, range⟩ := ih range
    exact ⟨List.forall_mem_cons.2 ⟨size, sizes⟩, range⟩

/-- A map that ends before what is written is found again. -/
theorem SignedRange.find_eq {original : Bytes} {n : Nat} {map : FlashMap}
    (range : SignedRange layout original n bytes) (found : FlashMap.find original = some map)
    (behind : ∀ a, layout.signature = a ∨ layout.key = some a →
      map.extent.offset + map.extent.length ≤ a.offset) : FlashMap.find bytes = some map := by
  have spared {a : Area} (before : a.offset + a.length ≤ map.extent.offset + map.extent.length) :
      layout.Spares a :=
    ⟨Area.disjoint_of_le (.inr (before.trans (behind _ (.inl rfl)))),
      fun area hkey => Area.disjoint_of_le (.inr (before.trans (behind _ (.inr hkey))))⟩
  obtain ⟨map', found', rfl | ⟨before, changed⟩⟩ :=
    FlashMap.find_of_extent found range.length (range.kept _ (spared le_rfl))
  · exact found'
  · refine absurd (range.kept _ (spared ?_)) changed
    unfold FlashMap.headerAt FlashMap.extent FlashMap.encodedSize
    simp only
    omega

/-- A signing that succeeds fixes the size for all that follow: every run of further signings, by any
keys and without a size, reports the size that it reported and leaves the data as they were. The
same key with the same version writes what is there already, and reports the same. It makes no
difference if the image is parsed anew in between, as long as the same map is found: as it is if the
areas of signature and key are behind the map. -/
theorem resigning_keeps_size {signatureSize : Nat} (parsed : parse bytes signatureSize = .ok i)
    (apart : i.KeyApart) (signed : sign key signatureSize options bytes = .ok report bytes') :
    (∀ reports bytes'', Resigned i.layout bytes' reports bytes'' →
      (∀ r ∈ reports, r.dataSize = report.dataSize) ∧
      i.layout.data.slice bytes'' = i.layout.data.slice bytes ∧
      (FlashMap.find bytes'' = FlashMap.find bytes →
        parse bytes'' signatureSize = .ok { i with bytes := bytes'' } ∧
        ∀ key' options', sign key' signatureSize options' bytes''
          = signIn i.layout key' options' bytes'') ∧
      ∀ map, FlashMap.find bytes = some map →
        (∀ a, i.layout.signature = a ∨ i.layout.key = some a →
          map.extent.offset + map.extent.length ≤ a.offset) →
        FlashMap.find bytes'' = some map) ∧
    signIn i.layout key ⟨none, options.keyVersion⟩ bytes' = .ok report bytes' := by
  have apart := apart_of_parse parsed apart
  rw [sign_of_parse parsed] at signed
  refine ⟨fun reports bytes'' resigned => ?_, signIn_again apart signed⟩
  obtain ⟨sizes, range⟩ := (signedRange_of_signIn apart signed).of_resigned apart resigned
  refine ⟨sizes, range.kept _ apart.spares_data, fun same => ?_, fun map => range.find_eq⟩
  obtain ⟨rfl, layout⟩ := parse_eq_ok.1 parsed
  have again : parse bytes'' signatureSize = .ok { i with bytes := bytes'' } :=
    parse_eq_ok.2 ⟨rfl, (RwLayout.ofImage_congr same range.length signatureSize).trans layout⟩
  exact ⟨again, fun key' options' => by rw [sign_of_parse again]⟩

/-- Signs with the length of the data. -/
def otherKey : SigningKey := ⟨.ed25519, 1, [8], fun data => .ok [UInt8.ofNat data.length]⟩

/-- Four bytes of the sample image are signed. The same key finds them signed; another one signs the
same four, with the image parsed anew. -/
theorem sample_resigned : ∃ report image' report' image'',
    sign Signer.sampleSigner.dataKey 0 ⟨some 4, 9⟩ sampleBytes = .ok report image' ∧
    sign Signer.sampleSigner.dataKey 0 ⟨none, 9⟩ image' = .ok report image' ∧
    sign otherKey 0 ⟨none, 3⟩ image' = .ok report' image'' ∧
    report.dataSize = 4 ∧ report'.dataSize = 4 ∧ report'.signature.blob = [4] ∧
    parse image'' 0 = .ok { sample with bytes := image'' } := by
  have run : ((do
      let report ← sign Signer.sampleSigner.dataKey 0 ⟨some 4, 9⟩
      let report' ← sign otherKey 0 ⟨none, 3⟩
      return (report, report')).run' sampleBytes).map
        (fun (reports : RwSignReport × RwSignReport) =>
          (reports.1.dataSize, reports.2.signature.blob)) = some (4, [4]) := by
    decide +kernel
  have map : (FlashMap.find sampleBytes).map (·.extent) = some ⟨0, 182⟩ := by decide +kernel
  obtain ⟨_, image'', both, facts⟩ := run'_map_eq_some.1 run
  obtain ⟨report, image', signed, both⟩ := run_bind_eq_ok.1 both
  obtain ⟨report', _, other, both⟩ := run_bind_eq_ok.1 both
  cases both
  obtain ⟨size, blob⟩ := Prod.mk.inj facts
  obtain ⟨map, found, extent⟩ := Option.map_eq_some_iff.1 map
  have behind : ∀ a, sample.layout.signature = a ∨ sample.layout.key = some a →
      map.extent.offset + map.extent.length ≤ a.offset := by
    rw [extent]
    rintro a (rfl | h)
    · decide
    · obtain rfl := Option.some.inj h
      decide
  obtain ⟨chain, again⟩ := resigning_keeps_size parse_sampleBytes keyApart_sample signed
  obtain ⟨-, -, anew, kept⟩ := chain [] image' .nothing
  obtain ⟨-, sign_eq⟩ := anew ((kept map found behind).trans found.symm)
  have other' := (sign_eq _ _).symm.trans other
  obtain ⟨sizes, -, anew', kept'⟩ := chain [report'] image'' (.signed other' .nothing)
  obtain ⟨parsed, -⟩ := anew' ((kept' map found behind).trans found.symm)
  have size' : report'.dataSize = report.dataSize := sizes report' List.mem_cons_self
  exact ⟨report, image', report', image'', signed, (sign_eq _ _).trans again, other, size,
    size'.trans size, blob, parsed⟩

end RwImage
end VerifiedBoot
