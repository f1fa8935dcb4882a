/-
The signing of read-write images is all or nothing. All areas of an image lie inside it, so that no
write can fail once the records are made and fit. A signing either fails before the first write, with
an error that is no internal fault, or fills the areas of signature and key and leaves every other
byte.
-/
import VerifiedBoot.Proofs.Bounds.Input
import VerifiedBoot.Proofs.Signing.AllOrNothing

namespace VerifiedBoot

/-! ## Areas that hold a record -/

/-- An area of an image holds a record, and padding after it. -/
structure Area.HoldsPadded (a : Area) (image record : Bytes) : Prop where
  fits : record.length ≤ a.length
  content : a.slice image = some (record.padTo a.length RwImage.padding)

namespace RwImage
variable {i : RwImage} {bytes bytes' : Bytes} {key : SigningKey} {options : RwSignOptions}
  {report : RwSignReport} {signatureBytes : Bytes} {keyBytes : Option (Area × Bytes)}
  {signatureSize : Nat}

/-! ## What the steps of a plan report -/

theorem reports_filled (record : Except CodecError Bytes) (area : Area) (name : String) :
    Reports (filled record area name) := by
  unfold filled
  cases record with
  | error e => exact FailsOnly.error rfl
  | ok bs =>
    dsimp only
    split_ifs
    · exact FailsOnly.error rfl
    · exact .ok _

theorem reports_signRwData (data : Bytes) (key : SigningKey) : Reports (signRwData data key) := by
  refine (Reports.codec _).bind fun dataSize _ => ?_
  exact (Reports.trust _).bind fun blob _ => .ok _

/-- Once the data of an image are there to be signed, only what the caller gave can be wrong. -/
theorem reports_plan {data : Bytes} (h : i.part i.layout.data = .ok data) :
    Reports (i.plan key options) := by
  unfold plan
  rw [h]
  refine FailsOnly.bind (.ok _) fun data _ => FailsOnly.refuse rfl ?_
  refine (reports_signRwData _ _).bind fun signature _ => ?_
  refine (reports_filled _ _ _).bind fun content _ => ?_
  refine FailsOnly.bind ?_ fun stored _ => .ok _
  cases i.layout.key with
  | none => exact .ok _
  | some area => exact ((reports_filled _ _ _).bind fun content _ => .ok _).map

/-! ## Writing -/

theorem writeArea_of_inside {area : Area} {content : Bytes} {fault : InternalFault}
    (inside : area.Inside bytes.length) :
    writeArea area content fault bytes = .ok () (bytes.overwrite area.offset content) := by
  have there : area.slice bytes = some _ := Bytes.slice_eq_some.2 ⟨inside, rfl⟩
  have fits : area.fits bytes = true := by
    rw [Area.fits, there]
    rfl
  unfold writeArea
  rw [run_get_bind]
  simp only [fits]
  rfl

/-- What was planned fits into the image. -/
theorem Planned.writes_fit (h : i.Planned key options report signatureBytes keyBytes)
    (inside : ∀ a ∈ i.layout.areas, a.Inside i.bytes.length) :
    ∀ w ∈ i.writesOf signatureBytes keyBytes, w.1 + w.2.length ≤ i.bytes.length := by
  intro w hw
  rcases h.area_of_mem hw with ⟨-, area⟩ | ⟨area, _, -, hkey, -, harea⟩
  · have room := inside i.layout.signature List.mem_cons_self
    rw [← area] at room
    exact room
  · have room := inside area (by simp [RwLayout.areas, hkey])
    rw [← harea] at room
    exact room

theorem signIn_of_plan_error {e : Error} (h : i.plan key options = .error e) :
    signIn i.layout key options i.bytes = .error e i.bytes := by
  unfold signIn
  rw [run_get_bind]
  simp only [h]
  rfl

/-- Once there is a plan, no write fails. -/
theorem signIn_of_plan (inside : ∀ a ∈ i.layout.areas, a.Inside i.bytes.length)
    (h : i.plan key options = .ok (report, signatureBytes, keyBytes)) :
    signIn i.layout key options i.bytes
      = .ok report (i.bytes.overwriteAll (i.writesOf signatureBytes keyBytes)) := by
  have planned := plan_ok h
  have first := planned.writes_fit inside _ List.mem_cons_self
  unfold signIn
  rw [run_get_bind]
  simp only [h]
  rw [run_bind_of_ok (writeArea_of_inside (inside _ List.mem_cons_self))]
  rcases planned.key with ⟨rfl, -⟩ | ⟨area, content, rfl, hkey, -⟩
  · rfl
  · have second : area.Inside (i.bytes.overwrite i.layout.signature.offset signatureBytes).length := by
      rw [Bytes.length_overwrite first]
      exact inside area (by simp [RwLayout.areas, hkey])
    simp only
    rw [run_bind_of_ok (writeArea_of_inside second)]
    rfl

/-! ## What is written -/

section
variable (planned : i.Planned key options report signatureBytes keyBytes)
  (fits : ∀ w ∈ i.writesOf signatureBytes keyBytes, w.1 + w.2.length ≤ i.bytes.length)
include planned fits

/-- The area of the signature holds the record, if the key is stored elsewhere. -/
theorem Planned.signature_padded {record : Bytes} (encoded : report.signature.encode = .ok record)
    (apart : ∀ area, i.layout.key = some area → area.Disjoint i.layout.signature) :
    i.layout.signature.HoldsPadded
      (i.bytes.overwriteAll (i.writesOf signatureBytes keyBytes)) record := by
  obtain ⟨_, encoded', room, content⟩ := filled_eq_ok.1 planned.signature
  obtain rfl := Except.ok.inj (encoded.symm.trans encoded')
  refine ⟨room, ?_⟩
  rw [content]
  exact planned.signature_in_place fits apart

/-- The area of the key holds the packed key, wherever it is. -/
theorem Planned.key_padded {area : Area} (hkey : i.layout.key = some area) :
    area.HoldsPadded (i.bytes.overwriteAll (i.writesOf signatureBytes keyBytes))
      (packedKey key options.keyVersion).toBytes := by
  rcases planned.key with ⟨-, none⟩ | ⟨area', content, rfl, hkey', hcontent⟩
  · cases hkey.symm.trans none
  · obtain rfl := Option.some.inj (hkey.symm.trans hkey')
    obtain ⟨_, ⟨⟩, room, content⟩ := filled_eq_ok.1 hcontent
    refine ⟨room, ?_⟩
    rw [content]
    exact planned.key_in_place fits

end

/-! ## All or nothing -/

/-- The areas of an image lie inside it, and those of signature and data have no byte in common. Its
signing fails with no internal fault and leaves the image as it was, or it signs the start of the data,
leaves every byte outside the areas of signature and key, and fills each of the two with its record and
padding; only a key area that overlaps the signature may write over it. -/
theorem signing_all_or_nothing (key : SigningKey) (options : RwSignOptions)
    (parsed : parse bytes signatureSize = .ok i) :
    (∀ a ∈ i.layout.areas, a.Inside bytes.length) ∧ i.layout.signature.Disjoint i.layout.data ∧
    ((∃ e, sign key signatureSize options bytes = .error e bytes ∧ e.isInternal = false) ∨
      ∃ report bytes' data record, sign key signatureSize options bytes = .ok report bytes' ∧
        bytes'.length = bytes.length ∧
        i.layout.data.slice bytes = some data ∧ report.dataSize ≤ i.layout.data.length ∧
        report.signature.MadeBy key (data.take report.dataSize) ∧
        report.signature.encode = .ok record ∧ report.keyWritten = i.layout.key.isSome ∧
        (∀ j, ¬ i.layout.signature.Covers j →
          (∀ area, i.layout.key = some area → ¬ area.Covers j) → bytes'[j]? = bytes[j]?) ∧
        ((∀ area, i.layout.key = some area → area.Disjoint i.layout.signature) →
          i.layout.signature.HoldsPadded bytes' record) ∧
        (∀ area, i.layout.key = some area →
          area.HoldsPadded bytes' (packedKey key options.keyVersion).toBytes) ∧
        (key.publicMaterial.length < word32Bound → (packedKey key options.keyVersion).encode
          = .ok (packedKey key options.keyVersion).toBytes)) := by
  obtain ⟨rfl, layout⟩ := parse_eq_ok.1 parsed
  have inside : ∀ a ∈ i.layout.areas, a.Inside i.bytes.length := fun a ha =>
    RwLayout.area_inside layout ha
  refine ⟨inside, RwLayout.disjoint_of_ofImage layout, ?_⟩
  cases hplan : i.plan key options with
  | error e =>
    have there := part_of_parse parsed (List.mem_cons_of_mem _ List.mem_cons_self)
    refine .inl ⟨e, ?_, Error.isInternal_of_isReported (reports_plan there e hplan)⟩
    rw [sign_of_parse parsed, signIn_of_plan_error hplan]
  | ok plan =>
    obtain ⟨report, signatureBytes, keyBytes⟩ := plan
    have planned := plan_ok hplan
    have fits := planned.writes_fit inside
    obtain ⟨data, hdata, room, made⟩ := planned.signed
    obtain ⟨record, encoded, -⟩ := filled_eq_ok.1 planned.signature
    have keyWritten : report.keyWritten = i.layout.key.isSome := by
      rw [planned.keyWritten]
      rcases planned.key with ⟨rfl, none⟩ | ⟨area, content, rfl, hkey, -⟩
      · rw [none]
        rfl
      · rw [hkey]
        rfl
    have signed := (sign_of_parse parsed).trans (signIn_of_plan inside hplan)
    exact .inr ⟨report, _, data, record, signed, Bytes.length_overwriteAll fits,
      hdata, room.trans_eq (Bytes.length_slice hdata), made, encoded, keyWritten,
      fun j => planned.kept fits, planned.signature_padded fits encoded,
      fun area => planned.key_padded fits,
      fun short => PackedKey.encode_toBytes (k := packedKey key options.keyVersion) short⟩

/-- Four of eight bytes are signed, and nothing changes but the areas of signature and key; nine of
eight are refused, and nothing changes at all. -/
theorem sample_signed_or_unchanged :
    parse sampleBytes 0 = .ok sample ∧
    (∃ report image' record,
      sign Signer.sampleSigner.dataKey 0 ⟨some 4, 9⟩ sampleBytes = .ok report image' ∧
      image'.length = sampleBytes.length ∧ report.dataSize ≤ 8 ∧ report.keyWritten = true ∧
      (∀ j, j < 182 ∨ 198 ≤ j ∧ j < 206 → image'[j]? = sampleBytes[j]?) ∧
      report.signature.encode = .ok record ∧ (Area.mk 206 20).HoldsPadded image' record ∧
      (Area.mk 182 16).HoldsPadded image' (PackedKey.mk 1 9 [7]).toBytes) ∧
    ∃ e, sign Signer.sampleSigner.dataKey 0 ⟨some 9, 9⟩ sampleBytes = .error e sampleBytes ∧
      e.isInternal = false := by
  have signs : ((sign Signer.sampleSigner.dataKey 0 ⟨some 4, 9⟩).run' sampleBytes).isSome = true := by
    decide +kernel
  have refuses : ((sign Signer.sampleSigner.dataKey 0 ⟨some 9, 9⟩).run' sampleBytes).isSome = false := by
    decide +kernel
  obtain ⟨-, -, outcome⟩ :=
    signing_all_or_nothing Signer.sampleSigner.dataKey ⟨some 4, 9⟩ parse_sampleBytes
  obtain ⟨-, -, outcome'⟩ :=
    signing_all_or_nothing Signer.sampleSigner.dataKey ⟨some 9, 9⟩ parse_sampleBytes
  refine ⟨parse_sampleBytes, ?_, ?_⟩
  · rcases outcome with ⟨e, failed, -⟩ | ⟨report, image', data, record, signed, length, -, size, -,
      encoded, written, kept, signature, stored, -⟩
    · obtain ⟨_, _, signed⟩ := run'_isSome_iff.1 signs
      rw [failed] at signed
      cases signed
    · refine ⟨report, image', record, signed, length, size, written, ?_, encoded,
        signature fun area hkey => (keyApart_sample area hkey).1, stored _ rfl⟩
      rintro j hj
      refine kept j ?_ ?_
      · rintro ⟨start, -⟩
        have start : 206 ≤ j := start
        omega
      · rintro area hkey ⟨start, stop⟩
        obtain rfl := Option.some.inj hkey
        have start : 182 ≤ j := start
        have stop : j < 182 + 16 := stop
        omega
  · rcases outcome' with failed | ⟨report, image', data, record, signed, -⟩
    · exact failed
    · rw [run'_isSome_iff.2 ⟨report, image', signed⟩] at refuses
      cases refuses

end RwImage
end VerifiedBoot
