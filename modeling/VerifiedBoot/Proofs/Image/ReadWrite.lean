/-
Read-write images from signing to verification. Signature and data never overlap, whether the layout
comes from a flash map or from the end of a bare image; so what is signed is still there when both
records are written, and each record is read back from its area. The signer does not look at what
follows the signed bytes, and the verifier insists that it is padding: that alone decides the verdict.
-/
import VerifiedBoot.Image.RwImage
import VerifiedBoot.Proofs.Signing.Verified

namespace VerifiedBoot

/-! ## Records in areas -/

namespace RwImage

/-- A record that fits fills its area, with padding after it. -/
theorem filled_eq_ok {record : Except CodecError Bytes} {area : Area} {name : String}
    {content : Bytes} : filled record area name = .ok content ↔
      ∃ bs, record = .ok bs ∧ bs.length ≤ area.length ∧ bs.padTo area.length padding = content := by
  unfold filled
  cases record with
  | error e => simp
  | ok bs =>
    constructor
    · intro h
      simp only at h
      split_ifs at h with large
      cases h
      exact ⟨bs, rfl, not_lt.1 large, rfl⟩
    · rintro ⟨_, ⟨⟩, fits, rfl⟩
      exact if_neg (not_lt.2 fits)

/-- A record fills its area, and stands at the start of it. -/
theorem filled_ok {record : Except CodecError Bytes} {area : Area} {name : String} {content : Bytes}
    (h : filled record area name = .ok content) :
    content.length = area.length ∧ ∃ bs, record = .ok bs ∧ bs <+: content := by
  obtain ⟨bs, rfl, fits, rfl⟩ := filled_eq_ok.1 h
  exact ⟨Bytes.length_padTo _ fits, bs, rfl, Bytes.isPrefix_padTo _ _ _⟩

end RwImage

/-! ## Layouts -/

namespace RwLayout

/-- An area that shares no byte with those that a signing writes. -/
def Spares (l : RwLayout) (a : Area) : Prop :=
  l.signature.Disjoint a ∧ ∀ area, l.key = some area → area.Disjoint a

/-- The data end where the signature starts, or before it, or they start after it. -/
theorem disjoint_of_separate {signature data data' : Area}
    (hs : signature.offset + signature.length < word32Bound)
    (hd : data.offset + data.length < word32Bound) (h : separate signature data = .ok data') :
    signature.Disjoint data' := by
  unfold separate at h
  rw [Area.stop_eq hs, Area.stop_eq hd] at h
  split_ifs at h with inside starts
  · cases h
    refine Area.disjoint_of_le (.inr ?_)
    show data.offset + (signature.offset - data.offset) ≤ signature.offset
    omega
  · cases h
    refine Area.disjoint_of_le ?_
    omega

/-- An image has the areas that its flash map names, with the data cut off where the signature starts;
one without a flash map has all but the space for its signature as data. -/
theorem ofImage_cases {image : Bytes} {signatureSize : Nat} {l : RwLayout}
    (h : ofImage image signatureSize = .ok l) :
    (FlashMap.find image = none ∧ signatureSize ≤ image.length ∧ l = {
        key := none
        signature := ⟨image.length - signatureSize, signatureSize⟩
        data := ⟨0, image.length - signatureSize⟩ }) ∨
    ∃ map data, FlashMap.find image = some map ∧
      presentArea map signatureName image.length = some l.signature ∧
      presentArea map dataName image.length = some data ∧
      l.key = presentArea map keyName image.length ∧ separate l.signature data = .ok l.data := by
  unfold ofImage at h
  cases hmap : FlashMap.find image with
  | none =>
    simp only [hmap, bare] at h
    split_ifs at h with short
    cases h
    exact .inl ⟨rfl, not_lt.1 short, rfl⟩
  | some map =>
    simp only [hmap, ofMap] at h
    cases hs : presentArea map signatureName image.length with
    | none => simp only [hs] at h; cases h
    | some signature =>
      cases hd : presentArea map dataName image.length with
      | none => simp only [hs, hd] at h; cases h
      | some data =>
        simp only [hs, hd, bind_eq_ok, pure_eq_ok, liftCodec_eq_ok] at h
        obtain ⟨data', separated, rfl⟩ := h
        exact .inr ⟨map, data, rfl, hs, hd, rfl, separated⟩

theorem presentArea_le {map : FlashMap} {name : String} {length : Nat} {a : Area}
    (h : presentArea map name length = some a) :
    a.offset + a.length ≤ length ∧ a.offset + a.length < word32Bound :=
  FlashMap.clampedArea_le (Option.filter_eq_some_iff.1 h).1

/-- Signature and data of an image have no byte in common. -/
theorem disjoint_of_ofImage {image : Bytes} {signatureSize : Nat} {l : RwLayout}
    (h : ofImage image signatureSize = .ok l) : l.signature.Disjoint l.data := by
  rcases ofImage_cases h with ⟨-, -, rfl⟩ | ⟨map, data, -, hs, hd, -, separated⟩
  · exact Area.disjoint_of_le (.inr (Nat.zero_add _).le)
  · exact disjoint_of_separate (presentArea_le hs).2 (presentArea_le hd).2 separated

end RwLayout

namespace RwImage
variable {i : RwImage} {bytes bytes' : Bytes} {key : SigningKey} {options : RwSignOptions}
  {report : RwSignReport} {signatureBytes : Bytes} {keyBytes : Option (Area × Bytes)}

theorem parse_eq_ok {signatureSize : Nat} : parse bytes signatureSize = .ok i ↔
    i.bytes = bytes ∧ RwLayout.ofImage bytes signatureSize = .ok i.layout := by
  simp only [parse, bind_eq_ok, pure_eq_ok]
  constructor
  · rintro ⟨layout, h, rfl⟩
    exact ⟨rfl, h⟩
  · obtain ⟨_, layout⟩ := i
    rintro ⟨rfl, h⟩
    exact ⟨layout, h, rfl⟩

theorem part_eq_ok {area : Area} {bs : Bytes} : i.part area = .ok bs ↔ area.slice i.bytes = some bs := by
  unfold part
  cases area.slice i.bytes <;> simp

/-! ## Signing -/

/-- The public key as it is stored. -/
def packedKey (key : SigningKey) (version : UInt32) : PackedKey :=
  { algorithm := key.algorithm.raw, version, material := key.publicMaterial }

theorem signRwData_ok {data : Bytes} {s : Signature} (h : signRwData data key = .ok s) :
    s.MadeBy key data := by
  simp only [signRwData, bind_eq_ok, pure_eq_ok, liftCodec_eq_ok, liftTrust_eq_ok,
    toLength_eq_ok] at h
  obtain ⟨size, hsize, blob, hblob, rfl⟩ := h
  exact ⟨rfl, rfl, hsize, hblob⟩

/-- What is to be written: a signature of the first bytes of the data, and the public key if there is
an area for it. -/
structure Planned (i : RwImage) (key : SigningKey) (options : RwSignOptions) (report : RwSignReport)
    (signatureBytes : Bytes) (keyBytes : Option (Area × Bytes)) : Prop where
  signed : ∃ data, i.layout.data.slice i.bytes = some data ∧ report.dataSize ≤ data.length ∧
    report.signature.MadeBy key (data.take report.dataSize)
  signature : filled report.signature.encode i.layout.signature RwLayout.signatureName
    = .ok signatureBytes
  key : keyBytes = none ∧ i.layout.key = none ∨ ∃ area content, keyBytes = some (area, content) ∧
    i.layout.key = some area ∧
    filled (.ok (packedKey key options.keyVersion).toBytes) area RwLayout.keyName = .ok content
  keyWritten : report.keyWritten = keyBytes.isSome

theorem plan_ok (h : i.plan key options = .ok (report, signatureBytes, keyBytes)) :
    i.Planned key options report signatureBytes keyBytes := by
  simp only [plan, bind_eq_ok, refuse_eq_ok, pure_eq_ok, Prod.mk.injEq, not_lt] at h
  obtain ⟨data, hdata, fits, s, hs, content, hcontent, stored, hstored, rfl, rfl, rfl⟩ := h
  refine ⟨⟨data, part_eq_ok.1 hdata, fits, signRwData_ok hs⟩, hcontent, ?_, rfl⟩
  cases harea : i.layout.key with
  | none =>
    rw [harea] at hstored
    cases hstored
    exact .inl ⟨rfl, rfl⟩
  | some area =>
    rw [harea] at hstored
    simp only [Option.mapM_some, map_eq_ok, bind_eq_ok, pure_eq_ok] at hstored
    obtain ⟨_, ⟨content, hcontent, rfl⟩, rfl⟩ := hstored
    exact .inr ⟨area, content, rfl, rfl, hcontent⟩

theorem writeArea_ok {area : Area} {content : Bytes} {fault : InternalFault}
    (h : writeArea area content fault bytes = .ok () bytes') :
    area.offset + area.length ≤ bytes.length ∧ bytes' = bytes.overwrite area.offset content := by
  unfold writeArea at h
  rw [run_get_bind] at h
  by_cases fits : area.fits bytes
  · simp only [fits] at h
    cases h
    obtain ⟨part, hpart⟩ := Option.isSome_iff_exists.1 fits
    exact ⟨(Bytes.slice_eq_some.1 hpart).1, rfl⟩
  · simp only [fits] at h
    cases h

/-- The writes of a signing: the signature record, and then the public key. -/
def writesOf (i : RwImage) (signatureBytes : Bytes) (keyBytes : Option (Area × Bytes)) :
    List (Nat × Bytes) :=
  (i.layout.signature.offset, signatureBytes)
    :: (keyBytes.map fun (area, content) => (area.offset, content)).toList

theorem sign_of_parse {signatureSize : Nat} (parsed : parse bytes signatureSize = .ok i) :
    sign key signatureSize options bytes = signIn i.layout key options bytes := by
  unfold sign
  rw [run_get_bind, parsed]

/-- A signing that succeeds has written what was planned. -/
theorem signIn_ok {layout : RwLayout} (h : signIn layout key options bytes = .ok report bytes') :
    ∃ signatureBytes keyBytes,
      (RwImage.mk bytes layout).plan key options = .ok (report, signatureBytes, keyBytes) ∧
      (∀ w ∈ (RwImage.mk bytes layout).writesOf signatureBytes keyBytes,
        w.1 + w.2.length ≤ bytes.length) ∧
      bytes' = bytes.overwriteAll ((RwImage.mk bytes layout).writesOf signatureBytes keyBytes) := by
  unfold signIn at h
  rw [run_get_bind] at h
  cases hplan : (RwImage.mk bytes layout).plan key options with
  | error e => simp only [hplan] at h; cases h
  | ok plan =>
    obtain ⟨report', signatureBytes, keyBytes⟩ := plan
    simp only [hplan] at h
    obtain ⟨_, between, hfirst, h⟩ := run_bind_eq_ok.1 h
    have planned := plan_ok hplan
    obtain ⟨room, rfl⟩ := writeArea_ok hfirst
    rw [← (filled_ok planned.signature).1] at room
    rcases planned.key with ⟨rfl, noKey⟩ | ⟨area, content, rfl, hasKey, hcontent⟩
    · cases h
      refine ⟨signatureBytes, none, rfl, fun w hw => ?_, rfl⟩
      obtain rfl := List.mem_singleton.1 hw
      exact room
    · obtain ⟨_, after, hsecond, h⟩ := run_bind_eq_ok.1 h
      cases h
      obtain ⟨room', rfl⟩ := writeArea_ok hsecond
      rw [← (filled_ok hcontent).1, Bytes.length_overwrite room] at room'
      refine ⟨signatureBytes, some (area, content), rfl, fun w hw => ?_, rfl⟩
      rcases List.mem_pair.1 hw with rfl | rfl
      · exact room
      · exact room'

theorem sign_ok {signatureSize : Nat} (parsed : parse bytes signatureSize = .ok i)
    (h : sign key signatureSize options bytes = .ok report bytes') :
    ∃ signatureBytes keyBytes, i.Planned key options report signatureBytes keyBytes ∧
      (∀ w ∈ i.writesOf signatureBytes keyBytes, w.1 + w.2.length ≤ bytes.length) ∧
      bytes' = bytes.overwriteAll (i.writesOf signatureBytes keyBytes) := by
  obtain ⟨rfl, -⟩ := parse_eq_ok.1 parsed
  rw [sign_of_parse parsed] at h
  obtain ⟨signatureBytes, keyBytes, planned, fits, written⟩ := signIn_ok h
  exact ⟨signatureBytes, keyBytes, plan_ok planned, fits, written⟩

/-! ## Reading back -/

/-- The area for the public key, if there is one, has no byte in common with signature and data. -/
def KeyApart (i : RwImage) : Prop :=
  ∀ area, i.layout.key = some area →
    area.Disjoint i.layout.signature ∧ area.Disjoint i.layout.data

theorem signature_of_slice {content bs : Bytes} {s : Signature} (encoded : s.encode = .ok bs)
    (hslice : i.layout.signature.slice i.bytes = some content) (start : bs <+: content) :
    i.signature = .ok s := by
  simp only [signature, bind_eq_ok, liftCodec_eq_ok]
  exact ⟨content, part_eq_ok.2 hslice, Signature.exact_read.parse_ok.2 ⟨bs, encoded, start⟩⟩

theorem storedKey_of_slice {area : Area} {content bs : Bytes} {packed : PackedKey}
    (encoded : packed.encode = .ok bs) (hkey : i.layout.key = some area)
    (hslice : area.slice i.bytes = some content) (start : bs <+: content) :
    i.storedKey = some (.ok packed) := by
  have read : (do liftCodec (PackedKey.parse (← i.part area))) = .ok packed := by
    simp only [bind_eq_ok, liftCodec_eq_ok]
    exact ⟨content, part_eq_ok.2 hslice, PackedKey.exact_read.parse_ok.2 ⟨bs, encoded, start⟩⟩
  simp only [storedKey, hkey, Option.map_some, read]

/-- Where signature and key are as they should be, the verdict depends on the padding alone. -/
theorem verify_of_signature {given : Option PackedKey} {primitives : TrustPrimitives}
    {packed : PackedKey} {s : Signature} {data : Bytes} (hs : i.signature = .ok s)
    (hkey : i.verificationKey given = .ok packed) (usable : primitives.checkKey packed = .ok ())
    (hdata : i.layout.data.slice i.bytes = some data)
    (kind : s.kind = .classical) (fits : s.dataSize.toNat ≤ data.length)
    (valid : s.verifyData packed (data.take s.dataSize.toNat) primitives = .ok ()) :
    i.verify given primitives
      = if (data.drop s.dataSize.toNat).all (· == padding) then .trusted s.dataSize.toNat packed.version
        else .untrusted .paddingInvalid := by
  have classical : i.classicalSignature = .ok s := by
    simp only [classicalSignature, hs, kind, if_true]
  have examined : i.examine given primitives
      = if (data.drop s.dataSize.toNat).all (· == padding) then .ok (s.dataSize.toNat, packed.version)
        else .error .paddingInvalid := by
    simp only [examine, classical, hkey, usable, part_eq_ok.2 hdata, valid, Except.mapError, bind,
      Except.bind, if_neg (not_lt.2 fits)]
    rfl
  unfold verify
  rw [examined]
  by_cases padded : (data.drop s.dataSize.toNat).all (· == padding)
  · rw [if_pos padded, if_pos padded]
  · rw [if_neg padded, if_neg padded]

/-- Each write of a signing covers the area of the signature or that of the key. -/
theorem Planned.area_of_mem (h : i.Planned key options report signatureBytes keyBytes)
    {w : Nat × Bytes} (hw : w ∈ i.writesOf signatureBytes keyBytes) :
    w = (i.layout.signature.offset, signatureBytes) ∧
      Area.mk w.1 w.2.length = i.layout.signature ∨
    ∃ area content, keyBytes = some (area, content) ∧ i.layout.key = some area ∧
      w = (area.offset, content) ∧ Area.mk w.1 w.2.length = area := by
  rcases List.mem_cons.1 hw with rfl | hw
  · refine .inl ⟨rfl, ?_⟩
    rw [(filled_ok h.signature).1]
  · rcases h.key with ⟨rfl, -⟩ | ⟨area, content, rfl, hkey, hcontent⟩
    · cases hw
    · obtain rfl := List.mem_singleton.1 hw
      refine .inr ⟨area, content, rfl, hkey, rfl, ?_⟩
      rw [(filled_ok hcontent).1]

/-- A byte outside the areas of signature and key is as before. -/
theorem Planned.kept (h : i.Planned key options report signatureBytes keyBytes)
    (fits : ∀ w ∈ i.writesOf signatureBytes keyBytes, w.1 + w.2.length ≤ i.bytes.length) {j : Nat}
    (signature : ¬ i.layout.signature.Covers j)
    (noKey : ∀ area, i.layout.key = some area → ¬ area.Covers j) :
    (i.bytes.overwriteAll (i.writesOf signatureBytes keyBytes))[j]? = i.bytes[j]? := by
  refine Bytes.getElem?_overwriteAll_of_not_covers fits fun w hw hc => ?_
  rcases h.area_of_mem hw with ⟨-, area⟩ | ⟨area, _, -, hkey, -, harea⟩
  · rw [area] at hc
    exact signature hc
  · rw [harea] at hc
    exact noKey area hkey hc

/-- So is an area that shares no byte with them. -/
theorem Planned.slice_kept (h : i.Planned key options report signatureBytes keyBytes)
    (fits : ∀ w ∈ i.writesOf signatureBytes keyBytes, w.1 + w.2.length ≤ i.bytes.length) {a : Area}
    (spared : i.layout.Spares a) :
    a.slice (i.bytes.overwriteAll (i.writesOf signatureBytes keyBytes)) = a.slice i.bytes := by
  refine Bytes.slice_congr (Bytes.length_overwriteAll fits) fun j hj => h.kept fits ?_ ?_
  · exact fun covered => spared.1 j covered hj
  · exact fun area hkey covered => spared.2 area hkey j covered hj

/-- The signature is in place, if the key is stored elsewhere. -/
theorem Planned.signature_in_place (h : i.Planned key options report signatureBytes keyBytes)
    (fits : ∀ w ∈ i.writesOf signatureBytes keyBytes, w.1 + w.2.length ≤ i.bytes.length)
    (apart : ∀ area, i.layout.key = some area → area.Disjoint i.layout.signature) :
    i.layout.signature.slice (i.bytes.overwriteAll (i.writesOf signatureBytes keyBytes))
      = some signatureBytes := by
  have length := (filled_ok h.signature).1
  have written := Bytes.slice_overwriteAll_of_mem (w := (i.layout.signature.offset, signatureBytes))
    fits List.mem_cons_self fun w hw => ?_
  · rw [length] at written
    exact written
  · rcases h.area_of_mem hw with ⟨same, -⟩ | ⟨area, _, -, hkey, -, harea⟩
    · exact .inl same
    · rw [harea, length]
      exact .inr (apart area hkey)

/-- The key is in place, since it is written last. -/
theorem Planned.key_in_place {area : Area} {content : Bytes}
    (h : i.Planned key options report signatureBytes (some (area, content)))
    (fits : ∀ w ∈ i.writesOf signatureBytes (some (area, content)),
      w.1 + w.2.length ≤ i.bytes.length) :
    area.slice (i.bytes.overwriteAll (i.writesOf signatureBytes (some (area, content))))
      = some content := by
  rcases h.key with ⟨none, -⟩ | ⟨_, _, ⟨⟩, -, hcontent⟩
  · cases none
  · have last : i.writesOf signatureBytes (some (area, content))
        = [(i.layout.signature.offset, signatureBytes)] ++ [(area.offset, content)] := rfl
    have written := Bytes.slice_overwriteAll_last (last ▸ fits)
    rw [(filled_ok hcontent).1] at written
    exact written

/-- The data are as before, and the signature is read as it was made. -/
theorem Planned.signature_written (h : i.Planned key options report signatureBytes keyBytes)
    (fits : ∀ w ∈ i.writesOf signatureBytes keyBytes, w.1 + w.2.length ≤ i.bytes.length)
    (disjoint : i.layout.signature.Disjoint i.layout.data) (apart : i.KeyApart) :
    i.layout.data.slice (i.bytes.overwriteAll (i.writesOf signatureBytes keyBytes))
        = i.layout.data.slice i.bytes ∧
      ({ i with bytes := i.bytes.overwriteAll (i.writesOf signatureBytes keyBytes) } :
        RwImage).signature = .ok report.signature := by
  constructor
  · exact h.slice_kept fits ⟨disjoint, fun area hkey => (apart area hkey).2⟩
  · obtain ⟨-, bs, encoded, start⟩ := filled_ok h.signature
    have inPlace := h.signature_in_place fits fun area hkey => (apart area hkey).1
    exact signature_of_slice encoded inPlace start

/-- The public key is read as it was stored. -/
theorem Planned.key_written (h : i.Planned key options report signatureBytes keyBytes)
    (fits : ∀ w ∈ i.writesOf signatureBytes keyBytes, w.1 + w.2.length ≤ i.bytes.length)
    (short : key.publicMaterial.length < word32Bound) (written : report.keyWritten = true) :
    ({ i with bytes := i.bytes.overwriteAll (i.writesOf signatureBytes keyBytes) } :
      RwImage).storedKey = some (.ok (packedKey key options.keyVersion)) := by
  rcases h.key with ⟨rfl, -⟩ | ⟨area, content, rfl, hkey, hcontent⟩
  · rw [h.keyWritten] at written
    cases written
  · obtain ⟨-, _, ⟨⟩, start⟩ := filled_ok hcontent
    have encoded := PackedKey.encode_toBytes (k := packedKey key options.keyVersion) short
    exact storedKey_of_slice encoded hkey (h.key_in_place fits) start

/-! ## From signing to verification -/

/-- A signed image is verified with the key that it stores, or with the public key if it stores none:
it is trusted if all data after the signed bytes are padding, and else it is refused for that and for
nothing else. -/
theorem signed_data_verdict {signatureSize : Nat} {primitives : TrustPrimitives} {version : UInt32}
    (parsed : parse bytes signatureSize = .ok i) (apart : i.KeyApart)
    (short : key.publicMaterial.length < word32Bound)
    (signed : sign key signatureSize options bytes = .ok report bytes')
    (stored : report.keyWritten = true → version = options.keyVersion)
    (usable : primitives.checkKey (packedKey key version) = .ok ())
    (accepts : ∀ data blob, key.sign data = .ok blob →
      primitives.verify (packedKey key version) data blob = .ok ()) :
    ∃ data, i.layout.data.slice bytes = some data ∧ i.layout.data.slice bytes' = some data ∧
      report.dataSize ≤ data.length ∧
      ({ i with bytes := bytes' } : RwImage).verify
          (if report.keyWritten then none else some (packedKey key version)) primitives
        = (if (data.drop report.dataSize).all (· == 0xFF)
          then .trusted report.dataSize version else .untrusted .paddingInvalid) ∧
      (report.keyWritten = true → ({ i with bytes := bytes' } : RwImage).storedKey
        = some (.ok ⟨key.algorithm.raw, options.keyVersion, key.publicMaterial⟩)) := by
  obtain ⟨signatureBytes, keyBytes, planned, fits, rfl⟩ := sign_ok parsed signed
  obtain ⟨rfl, hlayout⟩ := parse_eq_ok.1 parsed
  obtain ⟨data, hdata, room, made⟩ := planned.signed
  obtain ⟨kept, hsignature⟩ :=
    planned.signature_written fits (RwLayout.disjoint_of_ofImage hlayout) apart
  have keyStored := planned.key_written fits short
  refine ⟨data, hdata, kept.trans hdata, room, ?_, keyStored⟩
  have size : report.signature.dataSize.toNat = report.dataSize := by
    rw [made.dataSize, List.length_take_of_le room]
  have found : ({ i with bytes := i.bytes.overwriteAll (i.writesOf signatureBytes keyBytes) } :
      RwImage).verificationKey (if report.keyWritten then none else some (packedKey key version))
        = .ok (packedKey key version) := by
    cases hw : report.keyWritten with
    | false => rfl
    | true =>
      unfold verificationKey
      rw [keyStored hw, stored hw]
      rfl
  have valid : report.signature.verifyData (packedKey key version)
      (data.take report.signature.dataSize.toNat) primitives = .ok () := by
    rw [size]
    exact made.verifyData rfl accepts
  have verdict := verify_of_signature hsignature found usable (kept.trans hdata) made.kind
    (size.trans_le room) valid
  rw [size] at verdict
  exact verdict

/-- An image with an area for the public key, and a signature at the end of the data. -/
def sampleBytes : Bytes :=
  let map := FlashMap.build "FMAP" 0 226
    [.named "KEY_RO" 182 16, .named "EC_RW" 198 28, .named "SIG_RW" 206 20]
  map.encode.toOption.getD [] ++ List.replicate 16 0 ++ [1, 2, 3, 4, 0xff, 0xff, 0xff, 0xff]
    ++ List.replicate 20 0

def sample : RwImage where
  bytes := sampleBytes
  layout := { key := some ⟨182, 16⟩, signature := ⟨206, 20⟩, data := ⟨198, 8⟩ }

theorem parse_sampleBytes : parse sampleBytes 0 = .ok sample := by
  have layout : RwLayout.ofImage sampleBytes 0 = .ok sample.layout := by decide +kernel
  exact parse_eq_ok.2 ⟨rfl, layout⟩

theorem keyApart_sample : sample.KeyApart := by
  intro area h
  obtain rfl := Option.some.inj h
  exact ⟨Area.disjoint_of_le (by decide), Area.disjoint_of_le (by decide)⟩

/-- Four of eight bytes are signed and the others are padding: the image is trusted with the key that
it stores. With three bytes signed, the fourth is no padding. -/
theorem sample_verdicts : ∃ report image' report' image'',
    sign Signer.sampleSigner.dataKey 0 ⟨some 4, 9⟩ sampleBytes = .ok report image' ∧
    ({ sample with bytes := image' } : RwImage).verify none Signer.sampleSigner.primitives
      = .trusted 4 9 ∧
    ({ sample with bytes := image' } : RwImage).storedKey = some (.ok ⟨1, 9, [7]⟩) ∧
    sign Signer.sampleSigner.dataKey 0 ⟨some 3, 9⟩ sampleBytes = .ok report' image'' ∧
    ({ sample with bytes := image'' } : RwImage).verify none Signer.sampleSigner.primitives
      = .untrusted .paddingInvalid := by
  have data : sample.layout.data.slice sampleBytes = some [1, 2, 3, 4, 0xff, 0xff, 0xff, 0xff] := by
    decide +kernel
  have accepts : ∀ data blob, Signer.sampleSigner.dataKey.sign data = .ok blob →
      Signer.sampleSigner.primitives.verify (packedKey Signer.sampleSigner.dataKey 9) data blob
        = .ok () := by
    intro data blob h
    cases h
    exact if_pos (.inl rfl)
  have run : ((sign Signer.sampleSigner.dataKey 0 ⟨some 4, 9⟩).run' sampleBytes).map
      (fun report => (report.dataSize, report.keyWritten)) = some (4, true) := by
    decide +kernel
  have run' : ((sign Signer.sampleSigner.dataKey 0 ⟨some 3, 9⟩).run' sampleBytes).map
      (fun report => (report.dataSize, report.keyWritten)) = some (3, true) := by
    decide +kernel
  obtain ⟨report, image', signed, facts⟩ := run'_map_eq_some.1 run
  obtain ⟨report', image'', signed', facts'⟩ := run'_map_eq_some.1 run'
  obtain ⟨size, written⟩ := Prod.mk.inj facts
  obtain ⟨size', written'⟩ := Prod.mk.inj facts'
  obtain ⟨_, found, -, -, verdict, stored⟩ := signed_data_verdict parse_sampleBytes keyApart_sample
    (by decide) signed (fun _ => rfl) rfl accepts
  obtain ⟨_, found', -, -, verdict', -⟩ := signed_data_verdict parse_sampleBytes keyApart_sample
    (by decide) signed' (fun _ => rfl) rfl accepts
  obtain rfl := Option.some.inj (data.symm.trans found)
  obtain rfl := Option.some.inj (data.symm.trans found')
  rw [size, written, if_pos rfl, if_pos (by decide)] at verdict
  rw [size', written', if_pos rfl, if_neg (by decide)] at verdict'
  exact ⟨report, image', report', image'', signed, verdict, stored written, signed', verdict'⟩

end RwImage
end VerifiedBoot
