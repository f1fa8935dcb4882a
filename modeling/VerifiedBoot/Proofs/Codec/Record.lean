/-
The two records that keyblocks and preambles are made of, packed keys and signatures. Each is read
just where its encoding stands, which ends on its own: what follows does not change what is read.
-/
import VerifiedBoot.Chain.Signature
import VerifiedBoot.Proofs.Codec.Reading

namespace VerifiedBoot

theorem countedField_ok {bs : Bytes} (h : bs.length < word32Bound) :
    ∃ out, countedField bs = .ok out :=
  ⟨_, countedField_eq_ok.2 ⟨UInt32.ofNat bs.length, UInt32.toNat_ofNat_of_lt h, rfl⟩⟩

/-! ## Packed keys -/

namespace PackedKey

theorem encode_eq_ok {k : PackedKey} {bs : Bytes} :
    k.encode = .ok bs ↔ ∃ field, countedField k.material = .ok field ∧
      Bytes.le32 k.algorithm ++ Bytes.le32 k.version ++ field = bs := by
  simp only [encode, bind_eq_ok, pure_eq_ok]

theorem length_encode {k : PackedKey} {bs : Bytes} (h : k.encode = .ok bs) :
    bs.length = k.byteLength := by
  obtain ⟨field, hf, rfl⟩ := encode_eq_ok.1 h
  simp only [List.length_append, Bytes.length_le32, length_countedField hf, byteLength, headerSize]
  omega

theorem encode_ok {k : PackedKey} (h : k.material.length < word32Bound) :
    ∃ bs, k.encode = .ok bs := by
  obtain ⟨field, hf⟩ := countedField_ok h
  exact ⟨_, encode_eq_ok.2 ⟨field, hf, rfl⟩⟩

/-- A key whose material is not too long has its encoding for bytes. -/
theorem encode_toBytes {k : PackedKey} (h : k.material.length < word32Bound) :
    k.encode = .ok k.toBytes := by
  obtain ⟨bs, hbs⟩ := encode_ok h
  rw [toBytes, hbs]

/-- A packed key is read just where its encoding stands. -/
theorem exact_read : Read.Exact read fun _ k bs => k.encode = .ok bs := by
  refine (Read.exact_word32.word fun algorithm => Read.exact_word32.word fun version =>
    Read.exact_counting.bind fun material =>
      Read.exact_pure (PackedKey.mk algorithm version material)).congr ?_
  intro pos k bs
  rw [encode_eq_ok]
  constructor
  · rintro ⟨_, _, ⟨_, _, ⟨_, field, _, hf, ⟨rfl, rfl⟩, rfl⟩, rfl⟩, rfl⟩
    exact ⟨field, hf, by simp⟩
  · rintro ⟨field, hf, rfl⟩
    exact ⟨_, _, ⟨_, _, ⟨_, field, [], hf, ⟨rfl, rfl⟩, rfl⟩, rfl⟩, by simp⟩

end PackedKey

/-! ## Signatures -/

namespace SignatureKind

theorem ofByte_eq_ok {b : UInt8} {kind : SignatureKind} : ofByte b = .ok kind ↔ b = kind.toByte := by
  constructor
  · unfold ofByte
    split_ifs with h₀ h₁
    · rintro ⟨⟩; exact h₀
    · rintro ⟨⟩; exact h₁
    · rintro ⟨⟩
  · rintro rfl
    cases kind <;> rfl

end SignatureKind

namespace Signature

theorem encode_eq_ok {s : Signature} {bs : Bytes} :
    s.encode = .ok bs ↔ ∃ field, countedField s.blob = .ok field ∧
      s.kind.toByte :: (Bytes.le32 s.algorithm ++ Bytes.le32 s.dataSize ++ field) = bs := by
  simp only [encode, bind_eq_ok, pure_eq_ok]

theorem length_encode {s : Signature} {bs : Bytes} (h : s.encode = .ok bs) :
    bs.length = s.byteLength := by
  obtain ⟨field, hf, rfl⟩ := encode_eq_ok.1 h
  simp only [List.length_cons, List.length_append, Bytes.length_le32, length_countedField hf,
    byteLength, headerSize]
  omega

theorem encode_ok {s : Signature} (h : s.blob.length < word32Bound) : ∃ bs, s.encode = .ok bs := by
  obtain ⟨field, hf⟩ := countedField_ok h
  exact ⟨_, encode_eq_ok.2 ⟨field, hf, rfl⟩⟩

theorem exact_readKind : Read.Exact readKind fun _ kind bs => bs = [kind.toByte] := by
  refine (Read.exact_word8.word (w := fun b _ kind bs => b = kind.toByte ∧ bs = [])
    fun b => ?_).congr ?_
  · cases h : SignatureKind.ofByte b with
    | ok kind =>
      refine (Read.exact_pure kind).congr ?_
      intro _ v bs
      rw [← SignatureKind.ofByte_eq_ok, h, Except.ok.injEq, eq_comm]
    | error e =>
      refine (Read.exact_throw e).congr ?_
      intro _ v bs
      rw [← SignatureKind.ofByte_eq_ok, h]
      simp
  · intro pos kind bs
    constructor
    · rintro ⟨_, _, ⟨rfl, rfl⟩, rfl⟩
      rfl
    · rintro rfl
      exact ⟨_, [], ⟨rfl, rfl⟩, rfl⟩

/-- A signature is read just where its encoding stands. -/
theorem exact_read : Read.Exact read fun _ s bs => s.encode = .ok bs := by
  refine (exact_readKind.word fun kind => Read.exact_word32.word fun algorithm =>
    Read.exact_word32.word fun dataSize => Read.exact_counting.bind fun blob =>
      Read.exact_pure (Signature.mk kind algorithm dataSize blob)).congr ?_
  intro pos s bs
  rw [encode_eq_ok]
  constructor
  · rintro ⟨_, _, ⟨_, _, ⟨_, _, ⟨_, field, _, hf, ⟨rfl, rfl⟩, rfl⟩, rfl⟩, rfl⟩, rfl⟩
    exact ⟨field, hf, by simp⟩
  · rintro ⟨field, hf, rfl⟩
    exact ⟨_, _, ⟨_, _, ⟨_, _, ⟨_, field, [], hf, ⟨rfl, rfl⟩, rfl⟩, rfl⟩, rfl⟩, by simp⟩

end Signature

/-! ## Encodings end on their own -/

theorem Bytes.le32_append_inj {v v' : UInt32} {t t' : Bytes}
    (h : le32 v ++ t = le32 v' ++ t') : v = v' ∧ t = t' :=
  have ⟨hv, _, ht⟩ := Read.exact_word32.unique 0 rfl rfl h
  ⟨hv, ht⟩

theorem Bytes.le16_append_inj {v v' : UInt16} {t t' : Bytes}
    (h : le16 v ++ t = le16 v' ++ t') : v = v' ∧ t = t' :=
  have ⟨hv, _, ht⟩ := Read.exact_word16.unique 0 rfl rfl h
  ⟨hv, ht⟩

theorem PackedKey.encode_append_inj {k k' : PackedKey} {x x' t t' : Bytes}
    (h : k.encode = .ok x) (h' : k'.encode = .ok x') (ht : x ++ t = x' ++ t') :
    k = k' ∧ t = t' :=
  have ⟨hk, _, ht⟩ := PackedKey.exact_read.unique 0 h h' ht
  ⟨hk, ht⟩

theorem Signature.encode_append_inj {s s' : Signature} {x x' t t' : Bytes}
    (h : s.encode = .ok x) (h' : s'.encode = .ok x') (ht : x ++ t = x' ++ t') :
    s = s' ∧ t = t' :=
  have ⟨hs, _, ht⟩ := Signature.exact_read.unique 0 h h' ht
  ⟨hs, ht⟩

end VerifiedBoot
