/-
Preambles are read just where they are written: reading yields a preamble if and only if its version
is the one understood, its size is that of its fields and its encoding stands at the offset.
-/
import VerifiedBoot.Chain.Preamble
import VerifiedBoot.Proofs.Codec.Record

namespace VerifiedBoot
namespace Preamble

/-! ## Encodings -/

theorem encodeSubkey_eq_ok {subkey : Option PackedKey} {bs : Bytes} :
    encodeSubkey subkey = .ok bs ↔ (subkey = none ∧ [0] = bs) ∨
      ∃ key e, subkey = some key ∧ key.encode = .ok e ∧ 1 :: e = bs := by
  cases subkey with
  | none => simp [encodeSubkey]
  | some key => simp only [encodeSubkey, bind_eq_ok, pure_eq_ok]; simp

theorem signedBytes_eq_ok {p : Preamble} {bs : Bytes} :
    p.signedBytes = .ok bs ↔ ∃ body, p.bodySignature.encode = .ok body ∧
      ∃ subkey, encodeSubkey p.subkey = .ok subkey ∧
        Bytes.le32 p.size ++ Bytes.le32 p.headerVersion ++ Bytes.le16 p.version ++ Bytes.le16 0
          ++ Bytes.le32 p.flags ++ body ++ subkey = bs := by
  simp only [signedBytes, bind_eq_ok, pure_eq_ok]

theorem encode_eq_ok {p : Preamble} {bs : Bytes} :
    p.encode = .ok bs ↔ p.size.toNat = p.byteLength ∧
      ∃ signed, p.signedBytes = .ok signed ∧
        ∃ blob, p.signature.encode = .ok blob ∧ signed ++ blob = bs := by
  simp only [encode, refuse_eq_ok, bind_eq_ok, pure_eq_ok, ne_eq, not_not]

theorem length_encodeSubkey {subkey : Option PackedKey} {bs : Bytes}
    (h : encodeSubkey subkey = .ok bs) : bs.length = 1 + subkeyLength subkey := by
  rcases encodeSubkey_eq_ok.1 h with ⟨rfl, rfl⟩ | ⟨key, e, rfl, he, rfl⟩
  · rfl
  · rw [List.length_cons, PackedKey.length_encode he, Nat.add_comm]
    rfl

theorem length_signedBytes {p : Preamble} {bs : Bytes} (h : p.signedBytes = .ok bs) :
    bs.length = signedLength p.bodySignature p.subkey := by
  obtain ⟨body, hb, subkey, hs, rfl⟩ := signedBytes_eq_ok.1 h
  simp only [List.length_append, Bytes.length_le32, Bytes.length_le16, Signature.length_encode hb,
    length_encodeSubkey hs, signedLength, headerSize]
  omega

theorem length_encode {p : Preamble} {bs : Bytes} (h : p.encode = .ok bs) :
    bs.length = p.byteLength := by
  obtain ⟨-, signed, hs, blob, hb, rfl⟩ := encode_eq_ok.1 h
  rw [List.length_append, length_signedBytes hs, Signature.length_encode hb]
  rfl

theorem minSize_le_byteLength (p : Preamble) : minSize ≤ p.byteLength := by
  unfold minSize byteLength signedLength Signature.byteLength
  omega

/-- A preamble whose size is that of its fields has an encoding. -/
theorem encode_ok {p : Preamble} (h : p.size.toNat = p.byteLength) : ∃ bs, p.encode = .ok bs := by
  have hs := p.size.toNat_lt
  unfold byteLength signedLength Signature.byteLength at h
  obtain ⟨body, hbody⟩ := Signature.encode_ok (s := p.bodySignature) (by unfold word32Bound; omega)
  obtain ⟨blob, hblob⟩ := Signature.encode_ok (s := p.signature) (by unfold word32Bound; omega)
  obtain ⟨subkey, hsubkey⟩ : ∃ subkey, encodeSubkey p.subkey = .ok subkey := by
    cases hk : p.subkey with
    | none => exact ⟨_, rfl⟩
    | some key =>
      simp only [hk, subkeyLength, Option.elim_some, PackedKey.byteLength] at h
      obtain ⟨e, he⟩ := PackedKey.encode_ok (k := key) (by unfold word32Bound; omega)
      exact ⟨_, encodeSubkey_eq_ok.2 (.inr ⟨key, e, rfl, he, rfl⟩)⟩
  exact ⟨_, encode_eq_ok.2 ⟨h, _, signedBytes_eq_ok.2 ⟨body, hbody, subkey, hsubkey, rfl⟩, blob,
    hblob, rfl⟩⟩

/-! ## Canonical preambles -/

/-- A preamble as it is written: of the version that is understood and of the size of its fields. -/
structure Canonical (p : Preamble) : Prop where
  version : p.headerVersion = 1
  size : p.size.toNat = p.byteLength

/-! ## Reading -/

theorem exact_readSize (available : Nat) : Read.Exact (readSize available) fun _ size bs =>
    size.toNat ≤ available ∧ minSize ≤ size.toNat ∧ bs = Bytes.le32 size := by
  refine (Read.exact_word32.word fun size => Read.Exact.require <| Read.Exact.require <|
    Read.exact_pure size).congr ?_
  intro pos size bs
  constructor
  · rintro ⟨_, _, ⟨ha, hm, rfl, rfl⟩, rfl⟩
    exact ⟨ha, hm, List.append_nil _⟩
  · rintro ⟨ha, hm, rfl⟩
    exact ⟨_, _, ⟨ha, hm, rfl, rfl⟩, (List.append_nil _).symm⟩

theorem exact_readSubkey : Read.Exact readSubkey fun _ subkey bs => encodeSubkey subkey = .ok bs := by
  have byPresence : ∀ present : UInt8, Read.Exact
      (if present = 0 then (return none : Read (Option PackedKey)) else do
        Read.require (present = 1) (.nonCanonical .subkeyPresence)
        return some (← PackedKey.read))
      fun _ subkey bs => (present = 0 ∧ subkey = none ∧ bs = []) ∨
        (present = 1 ∧ ∃ key, subkey = some key ∧ key.encode = .ok bs) := by
    intro present
    split_ifs with h
    · refine (Read.exact_pure none).congr ?_
      intro _ subkey bs
      simp [h]
    · refine (Read.Exact.require <|
        PackedKey.exact_read.bind fun key => Read.exact_pure (some key)).congr ?_
      intro _ subkey bs
      constructor
      · rintro ⟨h₁, key, e, _, he, ⟨rfl, rfl⟩, rfl⟩
        exact .inr ⟨h₁, key, rfl, by simpa using he⟩
      · rintro (⟨h₀, -⟩ | ⟨h₁, key, rfl, he⟩)
        · exact absurd h₀ h
        · exact ⟨h₁, key, bs, [], he, ⟨rfl, rfl⟩, by simp⟩
  refine (Read.exact_word8.word byPresence).congr ?_
  intro pos subkey bs
  rw [encodeSubkey_eq_ok]
  constructor
  · rintro ⟨_, _, ⟨rfl, rfl, rfl⟩ | ⟨rfl, key, rfl, he⟩, rfl⟩
    · exact .inl ⟨rfl, rfl⟩
    · exact .inr ⟨key, _, rfl, he, rfl⟩
  · rintro (⟨rfl, rfl⟩ | ⟨key, e, rfl, he, rfl⟩)
    · exact ⟨0, [], .inl ⟨rfl, rfl, rfl⟩, rfl⟩
    · exact ⟨1, e, .inr ⟨rfl, key, rfl, he⟩, rfl⟩

theorem encodeSubkey_inj {subkey subkey' : Option PackedKey} {bs : Bytes}
    (h : encodeSubkey subkey = .ok bs) (h' : encodeSubkey subkey' = .ok bs) : subkey = subkey' :=
  have ⟨hk, _, _⟩ := exact_readSubkey.unique 0 h h' (rfl : bs ++ [] = bs ++ [])
  hk

/-- The signed bytes fix all of a preamble but its signature. -/
theorem eq_of_signedBytes {p p' : Preamble} {bs : Bytes} (h : p.signedBytes = .ok bs)
    (h' : p'.signedBytes = .ok bs) (hs : p.signature = p'.signature) : p = p' := by
  obtain ⟨body, hbody, sub, hsub, rfl⟩ := signedBytes_eq_ok.1 h
  obtain ⟨body', hbody', sub', hsub', heq⟩ := signedBytes_eq_ok.1 h'
  simp only [List.append_assoc] at heq
  obtain ⟨hsize, heq⟩ := Bytes.le32_append_inj heq
  obtain ⟨hheader, heq⟩ := Bytes.le32_append_inj heq
  obtain ⟨hversion, heq⟩ := Bytes.le16_append_inj heq
  obtain ⟨hflags, heq⟩ := Bytes.le32_append_inj (List.append_cancel_left heq)
  obtain ⟨hsignature, heq⟩ := Signature.encode_append_inj hbody' hbody heq
  have hsubkey := encodeSubkey_inj hsub' (heq ▸ hsub)
  cases p
  cases p'
  rw [mk.injEq]
  exact ⟨hsize.symm, hheader.symm, hversion.symm, hflags.symm, hsignature.symm, hsubkey.symm, hs⟩

/-- The fields after the declared size, as they are written. -/
def fieldBytes (version : UInt16) (flags : UInt32) (body subkey blob : Bytes) : Bytes :=
  Bytes.le32 1 ++ Bytes.le16 version ++ Bytes.le16 0 ++ Bytes.le32 flags ++ body ++ subkey ++ blob

theorem exact_readFields (size : UInt32) : Read.Exact (readFields size) fun pos p bs =>
    p.size = size ∧ p.headerVersion = 1 ∧
      ∃ body subkey blob, p.bodySignature.encode = .ok body ∧ encodeSubkey p.subkey = .ok subkey ∧
        p.signature.encode = .ok blob ∧ bs = fieldBytes p.version p.flags body subkey blob ∧
        pos + bs.length = size.toNat := by
  refine (Read.exact_word32.word fun headerVersion => Read.Exact.require <|
    Read.exact_word16.word fun version => Read.exact_word16.word fun reserved => Read.Exact.require <|
    Read.exact_word32.word fun flags => Signature.exact_read.bind fun bodySignature =>
    exact_readSubkey.bind fun subkey => Signature.exact_read.bind fun signature =>
    Read.Exact.atPosition fun actual => Read.Exact.require <|
    Read.exact_pure (Preamble.mk size headerVersion version flags bodySignature subkey
      signature)).congr ?_
  intro pos p bs
  -- both patterns have one level for each field that is read
  constructor
  · rintro ⟨_, _, ⟨rfl, _, _, ⟨_, _, ⟨rfl, _, _, ⟨_, body, _, hbody, ⟨_, subkey, _, hsubkey,
      ⟨_, blob, _, hblob, ⟨hend, rfl, rfl⟩, rfl⟩, rfl⟩, rfl⟩, rfl⟩, rfl⟩, rfl⟩, rfl⟩
    refine ⟨rfl, rfl, body, subkey, blob, hbody, hsubkey, hblob,
      by simp [fieldBytes, currentVersion], ?_⟩
    simp only [List.length_append, Bytes.length_le32, Bytes.length_le16, List.length_nil] at hend ⊢
    omega
  · rintro ⟨rfl, hv, body, subkey, blob, hbody, hsubkey, hblob, rfl, hend⟩
    refine ⟨_, _, ⟨rfl, p.version, _, ⟨_, _, ⟨rfl, p.flags, _, ⟨_, body, _, hbody, ⟨_, subkey, _, hsubkey,
      ⟨_, blob, _, hblob, ⟨?_, ?_, rfl⟩, rfl⟩, rfl⟩, rfl⟩, rfl⟩, rfl⟩, rfl⟩, ?_⟩
    · simp only [fieldBytes, List.length_append, Bytes.length_le32, Bytes.length_le16] at hend ⊢
      omega
    · cases p
      cases hv
      rfl
    · simp [fieldBytes, currentVersion]

/-- The encoding of a preamble of the version that is understood, by what is read in two parts. -/
theorem encode_eq_ok_of_version {p : Preamble} (hv : p.headerVersion = 1) {bs : Bytes} :
    p.encode = .ok bs ↔ p.size.toNat = p.byteLength ∧
      ∃ body subkey blob, p.bodySignature.encode = .ok body ∧
        encodeSubkey p.subkey = .ok subkey ∧ p.signature.encode = .ok blob ∧
        Bytes.le32 p.size ++ fieldBytes p.version p.flags body subkey blob = bs := by
  rw [encode_eq_ok]
  refine and_congr_right fun _ => ?_
  constructor
  · rintro ⟨_, hs, blob, hblob, rfl⟩
    obtain ⟨body, hbody, subkey, hsubkey, rfl⟩ := signedBytes_eq_ok.1 hs
    exact ⟨body, subkey, blob, hbody, hsubkey, hblob, by simp [fieldBytes, hv]⟩
  · rintro ⟨body, subkey, blob, hbody, hsubkey, hblob, rfl⟩
    refine ⟨_, signedBytes_eq_ok.2 ⟨body, hbody, subkey, hsubkey, rfl⟩, blob, hblob, ?_⟩
    simp [fieldBytes, hv]

/-- A preamble is read just if it is canonical and its encoding stands at the offset, which must
leave room for the smallest preamble among the offsets of the machine. -/
theorem parse_eq_ok_iff {p : Preamble} {area : Bytes} {offset : Nat} :
    parse area offset = .ok p ↔ offset + minSize < sizeBound ∧ p.Canonical ∧
      ∃ e, p.encode = .ok e ∧ e <+: area.drop offset := by
  simp only [parse, refuse_eq_ok, bind_eq_ok, (exact_readSize _).parse_ok,
    (exact_readFields _).parseFrom_ok, not_le, not_lt]
  refine and_congr_right fun _ => ?_
  constructor
  · rintro ⟨-, _, ⟨_, ⟨hle, -, rfl⟩, hh⟩, _, ⟨rfl, hv, body, subkey, blob, hbody, hsubkey, hblob,
      rfl, hend⟩, hf⟩
    rw [← Bytes.length_le32 p.size] at hend hf
    have whole := (framed_prefix_iff hend).2 ⟨hle, hh, hf⟩
    have hsize : p.size.toNat = p.byteLength := by
      rw [← hend]
      simp only [fieldBytes, List.length_append, Bytes.length_le32, Bytes.length_le16,
        Signature.length_encode hbody, Signature.length_encode hblob, length_encodeSubkey hsubkey,
        byteLength, signedLength, headerSize]
      omega
    exact ⟨⟨hv, hsize⟩, _,
      (encode_eq_ok_of_version hv).2 ⟨hsize, body, subkey, blob, hbody, hsubkey, hblob, rfl⟩, whole⟩
  · rintro ⟨⟨hv, hsize⟩, e, he, hp⟩
    have hlen := length_encode he
    have hmin := minSize_le_byteLength p
    obtain ⟨-, body, subkey, blob, hbody, hsubkey, hblob, rfl⟩ := (encode_eq_ok_of_version hv).1 he
    rw [← hsize] at hlen hmin
    rw [List.length_append] at hlen
    obtain ⟨hle, hh, hf⟩ := (framed_prefix_iff hlen).1 hp
    refine ⟨?_, p.size, ⟨_, ⟨hle, hmin, rfl⟩, hh⟩, _,
      ⟨rfl, hv, body, subkey, blob, hbody, hsubkey, hblob, rfl, hlen⟩, hf⟩
    rw [List.length_drop] at hle
    unfold minSize at hmin ⊢
    omega

end Preamble
end VerifiedBoot
