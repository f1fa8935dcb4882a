/-
How bare read-write images are recognized. An image without a flash map is one of them if a signature
stands where its space would be. The recognizer and the reader find that space each in its own way: they
agree because both cut an image of at least the default size at the same place, so what is recognized
can be verified, and what is signed is recognized again.
-/
import VerifiedBoot.Image.Kind
import VerifiedBoot.Proofs.Image.ReadWrite

namespace VerifiedBoot

/-! ## Bare images -/

namespace RwImage

/-- An image that ends with the space for its signature. -/
def bare (image : Bytes) (signatureSize : Nat) : RwImage where
  bytes := image
  layout := { key := none, signature := ⟨image.length - signatureSize, signatureSize⟩,
              data := ⟨0, image.length - signatureSize⟩ }

/-- Images of one length have their signatures in one place. -/
theorem bare_of_length {image image' : Bytes} (signatureSize : Nat)
    (length : image'.length = image.length) :
    bare image' signatureSize = { bare image signatureSize with bytes := image' } := by
  unfold bare
  rw [length]

theorem parse_of_no_map {image : Bytes} {signatureSize : Nat} {i : RwImage}
    (noMap : FlashMap.find image = none) :
    parse image signatureSize = .ok i ↔ signatureSize ≤ image.length ∧ i = bare image signatureSize := by
  have layout : RwLayout.ofImage image signatureSize = RwLayout.bare image.length signatureSize := by
    unfold RwLayout.ofImage
    rw [noMap]
  rw [parse_eq_ok, layout]
  unfold RwLayout.bare
  obtain ⟨bytes, l⟩ := i
  split_ifs with short
  · simp [short]
  · simp only [Except.ok.injEq, not_lt.1 short, true_and, bare, RwImage.mk.injEq]
    exact and_congr_right fun _ => eq_comm

/-- The signature is read from the last bytes. -/
theorem signature_bare {image : Bytes} {signatureSize : Nat} (fits : signatureSize ≤ image.length) :
    (bare image signatureSize).signature
      = liftCodec (Signature.parse (image.drop (image.length - signatureSize))) := by
  have last : (bare image signatureSize).part (bare image signatureSize).layout.signature
      = .ok (image.drop (image.length - signatureSize)) := by
    refine part_eq_ok.2 (Bytes.slice_eq_some.2 ⟨(Nat.sub_add_cancel fits).le, ?_⟩)
    exact List.take_of_length_le (by rw [List.length_drop]; exact (Nat.sub_sub_self fits).le)
  unfold signature
  rw [last]
  rfl

/-- All bytes before the signature are data. -/
theorem data_bare (image : Bytes) (signatureSize : Nat) :
    (bare image signatureSize).layout.data.slice image
      = some (image.take (image.length - signatureSize)) :=
  Bytes.slice_eq_some.2 ⟨(Nat.zero_add _).trans_le (Nat.sub_le _ _), rfl⟩

/-- A classical signature of no more bytes than the data has is neither malformed nor too large,
whatever else may be wrong. -/
theorem examine_of_signature {i : RwImage} {s : Signature} {data : Bytes} {given : Option PackedKey}
    {primitives : TrustPrimitives} (hs : i.signature = .ok s) (kind : s.kind = .classical)
    (hdata : i.layout.data.slice i.bytes = some data) (fits : s.dataSize.toNat ≤ data.length) :
    FailsOnly (fun failure => failure ≠ .signatureMalformed ∧ failure ≠ .dataTooLarge)
      (i.examine given primitives) := by
  have classical : i.classicalSignature = .ok s := by
    simp only [classicalSignature, hs, kind, if_true]
  have key : FailsOnly (fun failure => failure ≠ .signatureMalformed ∧ failure ≠ .dataTooLarge)
      (i.verificationKey given) := by
    unfold verificationKey
    split
    · exact .ok _
    · exact .ok _
    · exact .error ⟨by decide, by decide⟩
    · exact .error ⟨by decide, by decide⟩
  unfold examine
  rw [classical, part_eq_ok.2 hdata]
  refine .bind (.ok s) fun signature hsignature => .bind key fun packed _ => ?_
  obtain rfl := Except.ok.inj hsignature
  refine .bind (.mapError (p := fun _ => True) (fun _ _ => trivial)
    fun _ _ => ⟨by decide, by decide⟩) fun _ _ => ?_
  refine .bind (.ok data) fun found hfound => ?_
  obtain rfl := Except.ok.inj hfound
  simp only [if_neg (not_lt.2 fits)]
  refine .bind (.mapError (p := fun _ => True) (fun _ _ => trivial)
    fun _ _ => ⟨by decide, by decide⟩) fun _ _ => ?_
  split_ifs
  · exact .ok _
  · exact .error ⟨by decide, by decide⟩

/-- What is signed as a bare image is still one, and its reader finds the new signature. -/
theorem bare_signed {image signed : Bytes} {signatureSize : Nat} {key : SigningKey}
    {options : RwSignOptions} {report : RwSignReport} (noMap : FlashMap.find image = none)
    (h : sign key signatureSize options image = .ok report signed) :
    signed.length = image.length ∧ signatureSize ≤ image.length ∧
      report.dataSize ≤ image.length - signatureSize ∧
      (bare signed signatureSize).signature = .ok report.signature ∧
      ∃ data, data.length = report.dataSize ∧ report.signature.MadeBy key data := by
  have parsed : ∃ i, parse image signatureSize = .ok i := by
    unfold sign at h
    rw [run_get_bind] at h
    cases hi : parse image signatureSize with
    | error e => simp only [hi] at h; cases h
    | ok i => exact ⟨i, rfl⟩
  obtain ⟨i, parsed⟩ := parsed
  obtain ⟨signatureBytes, keyBytes, planned, fits, rfl⟩ := sign_ok parsed h
  obtain ⟨room, rfl⟩ := (parse_of_no_map noMap).1 parsed
  have apart : (bare image signatureSize).KeyApart := fun area hkey => by cases hkey
  obtain ⟨-, layout⟩ := parse_eq_ok.1 parsed
  obtain ⟨-, hsignature⟩ :=
    planned.signature_written fits (RwLayout.disjoint_of_ofImage layout) apart
  have length := Bytes.length_overwriteAll fits
  obtain ⟨data, hdata, large, made⟩ := planned.signed
  obtain rfl := Option.some.inj ((data_bare image signatureSize).symm.trans hdata)
  have available : (image.take (image.length - signatureSize)).length = image.length - signatureSize :=
    List.length_take_of_le (Nat.sub_le _ _)
  refine ⟨length, room, available ▸ large, ?_, _, List.length_take_of_le large, made⟩
  rw [bare_of_length signatureSize length]
  exact hsignature

end RwImage

/-! ## Recognition -/

namespace ImageKind

/-- Without a flash map and the mark of a kernel, only the end of an image tells what it is. -/
theorem ofImage_eq_readWrite_iff {image : Bytes} (noMap : FlashMap.find image = none)
    (noKernel : ¬ KernelImage.magic <+: image) :
    ofImage image = .readWrite ↔ endsWithSignature image = true := by
  unfold ofImage
  rw [if_neg (mt List.isPrefixOf_iff_prefix.1 noKernel), noMap]
  cases endsWithSignature image <;> simp

/-- The recognizer finds the signature that the reader of bare images finds. -/
theorem endsWithSignature_iff {image : Bytes} :
    endsWithSignature image = true ↔ RwLayout.defaultSignatureSize ≤ image.length ∧
      ∃ s, (RwImage.bare image RwLayout.defaultSignatureSize).signature = .ok s ∧
        s.kind = .classical ∧ s.blob ≠ [] ∧
        s.dataSize.toNat ≤ image.length - RwLayout.defaultSignatureSize := by
  unfold endsWithSignature
  split_ifs with short
  · simp [short]
  · have fits := not_lt.1 short
    rw [RwImage.signature_bare fits]
    dsimp only
    cases Signature.parse (image.drop (image.length - RwLayout.defaultSignatureSize)) with
    | error e => simp [liftCodec, Except.mapError]
    | ok s => simp [liftCodec, Except.mapError, fits, and_assoc]

/-- An image without a flash map and the mark of a kernel is recognized as a read-write one just if its
reader finds a signature in it that can be one of its data. Whoever verifies it never finds the signature
malformed or the data too large; and once a key that makes signatures with at least one byte has signed
an image, it is recognized. -/
theorem readWrite_recognized_iff_readable {image : Bytes} (noMap : FlashMap.find image = none)
    (noKernel : ¬ KernelImage.magic <+: image) :
    (ofImage image = .readWrite ↔ ∃ i s, RwImage.parse image RwLayout.defaultSignatureSize = .ok i ∧
      i.signature = .ok s ∧ s.kind = .classical ∧ s.blob ≠ [] ∧
      s.dataSize.toNat ≤ i.layout.data.length) ∧
    (ofImage image = .readWrite → ∃ i, RwImage.parse image RwLayout.defaultSignatureSize = .ok i ∧
      ∀ given primitives, i.verify given primitives ≠ .untrusted .signatureMalformed ∧
        i.verify given primitives ≠ .untrusted .dataTooLarge) ∧
    ∀ (key : SigningKey) (options : RwSignOptions) (report : RwSignReport) (signed : Bytes),
      (∀ data blob, key.sign data = .ok blob → blob ≠ []) →
      RwImage.sign key RwLayout.defaultSignatureSize options image = .ok report signed →
      FlashMap.find signed = none → ¬ KernelImage.magic <+: signed → ofImage signed = .readWrite := by
  rw [ofImage_eq_readWrite_iff noMap noKernel, endsWithSignature_iff]
  refine ⟨?_, ?_, ?_⟩
  · constructor
    · rintro ⟨fits, s, facts⟩
      exact ⟨_, s, (RwImage.parse_of_no_map noMap).2 ⟨fits, rfl⟩, facts⟩
    · rintro ⟨i, s, parsed, facts⟩
      obtain ⟨fits, rfl⟩ := (RwImage.parse_of_no_map noMap).1 parsed
      exact ⟨fits, s, facts⟩
  · rintro ⟨fits, s, hs, kind, -, room⟩
    refine ⟨_, (RwImage.parse_of_no_map noMap).2 ⟨fits, rfl⟩, fun given primitives => ?_⟩
    have large : s.dataSize.toNat ≤
        (image.take (image.length - RwLayout.defaultSignatureSize)).length := by
      rwa [List.length_take_of_le (Nat.sub_le _ _)]
    unfold RwImage.verify
    split
    · exact ⟨nofun, nofun⟩
    · next failure failed =>
      obtain ⟨notMalformed, notTooLarge⟩ :=
        RwImage.examine_of_signature hs kind (RwImage.data_bare image _) large failure failed
      exact ⟨fun h => notMalformed (RwVerdict.untrusted.inj h),
        fun h => notTooLarge (RwVerdict.untrusted.inj h)⟩
  · intro key options report signed nonempty h noMap' noKernel'
    obtain ⟨length, fits, room, hs, data, size, made⟩ := RwImage.bare_signed noMap h
    rw [ofImage_eq_readWrite_iff noMap' noKernel', endsWithSignature_iff, length]
    refine ⟨fits, report.signature, hs, made.kind, nonempty _ _ made.signed, ?_⟩
    rw [made.dataSize, size]
    exact room

/-- Two bytes, and the space for their signature with a record at its start. -/
def sampleBare (record : Bytes) : Bytes := [1, 2] ++ record.padTo 1024 RwImage.padding

def sampleRecord : Bytes := [0, 1, 0, 0, 0, 2, 0, 0, 0, 1, 0, 0, 0, 3]

/-- An image is unknown until it is signed, and after that its signature is well-formed for everyone. -/
theorem sample_recognized_once_signed : ofImage (sampleBare []) = .unknown ∧ (∃ report,
      RwImage.sign Signer.sampleSigner.dataKey RwLayout.defaultSignatureSize ⟨none, 1⟩ (sampleBare [])
        = .ok report (sampleBare sampleRecord)) ∧
    ofImage (sampleBare sampleRecord) = .readWrite ∧
    ∃ i, RwImage.parse (sampleBare sampleRecord) RwLayout.defaultSignatureSize = .ok i ∧
      ∀ given primitives, i.verify given primitives ≠ .untrusted .signatureMalformed ∧
        i.verify given primitives ≠ .untrusted .dataTooLarge := by
  have noMap : FlashMap.find (sampleBare []) = none := by decide +kernel
  have noMap' : FlashMap.find (sampleBare sampleRecord) = none := by decide +kernel
  have noKernel : ¬ KernelImage.magic <+: sampleBare [] := by decide +kernel
  have noKernel' : ¬ KernelImage.magic <+: sampleBare sampleRecord := by decide +kernel
  have written : (match RwImage.sign Signer.sampleSigner.dataKey RwLayout.defaultSignatureSize
      ⟨none, 1⟩ (sampleBare []) with
      | .ok _ signed => signed == sampleBare sampleRecord
      | .error _ _ => false) = true := by
    decide +kernel
  have nonempty : ∀ data blob, Signer.sampleSigner.dataKey.sign data = .ok blob → blob ≠ [] := by
    intro data blob h
    cases h
    exact List.cons_ne_nil _ _
  obtain ⟨-, -, recognize⟩ := readWrite_recognized_iff_readable noMap noKernel
  obtain ⟨-, verdicts, -⟩ := readWrite_recognized_iff_readable noMap' noKernel'
  split at written
  · next report signed run =>
    obtain rfl := eq_of_beq written
    have recognized := recognize _ _ _ _ nonempty run noMap' noKernel'
    exact ⟨by decide +kernel, ⟨report, run⟩, recognized, verdicts recognized⟩
  · cases written

end ImageKind
end VerifiedBoot
