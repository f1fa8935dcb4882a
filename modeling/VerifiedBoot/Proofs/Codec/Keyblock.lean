/-
Keyblocks are read just where they are written. A keyblock is canonical when its version is the one
understood, its size is that of its fields and its checksum is that of the bytes before it; reading
yields a keyblock if and only if it is canonical and its encoding stands at the start.
-/
import VerifiedBoot.Chain.Keyblock
import VerifiedBoot.Proofs.Codec.Record

namespace VerifiedBoot
namespace Keyblock

/-! ## Encodings -/

theorem checkedBytes_eq_ok {k : Keyblock} {bs : Bytes} :
    k.checkedBytes = .ok bs ↔ ∃ key, k.dataKey.encode = .ok key ∧
      magic ++ Bytes.le32 k.headerVersion ++ Bytes.le32 k.size ++ Bytes.le32 k.flags.bits ++ key
        = bs := by
  simp only [checkedBytes, bind_eq_ok, pure_eq_ok]

theorem signedBytes_eq_ok {k : Keyblock} {bs : Bytes} :
    k.signedBytes = .ok bs ↔
      ∃ checked, k.checkedBytes = .ok checked ∧ checked ++ k.checksum.bytes = bs := by
  simp only [signedBytes, bind_eq_ok, pure_eq_ok]

theorem encode_eq_ok {k : Keyblock} {bs : Bytes} :
    k.encode = .ok bs ↔ k.size.toNat = k.byteLength ∧
      ∃ signed, k.signedBytes = .ok signed ∧
        ∃ blob, k.signature.encode = .ok blob ∧ signed ++ blob = bs := by
  simp only [encode, refuse_eq_ok, bind_eq_ok, pure_eq_ok, ne_eq, not_not]

theorem length_magic : magic.length = 8 := rfl

theorem length_checkedBytes {k : Keyblock} {bs : Bytes} (h : k.checkedBytes = .ok bs) :
    bs.length = headerSize + k.dataKey.byteLength := by
  obtain ⟨key, hk, rfl⟩ := checkedBytes_eq_ok.1 h
  simp only [List.length_append, length_magic, Bytes.length_le32, PackedKey.length_encode hk,
    headerSize]

theorem length_signedBytes {k : Keyblock} {bs : Bytes} (h : k.signedBytes = .ok bs) :
    bs.length = headerSize + k.dataKey.byteLength + checksumSize := by
  obtain ⟨checked, hc, rfl⟩ := signedBytes_eq_ok.1 h
  rw [List.length_append, length_checkedBytes hc, k.checksum.length_eq]
  rfl

theorem length_encode {k : Keyblock} {bs : Bytes} (h : k.encode = .ok bs) :
    bs.length = k.byteLength := by
  obtain ⟨-, signed, hs, blob, hb, rfl⟩ := encode_eq_ok.1 h
  rw [List.length_append, length_signedBytes hs, Signature.length_encode hb]
  rfl

theorem minSize_le_byteLength (k : Keyblock) : minSize ≤ k.byteLength := by
  unfold minSize byteLength PackedKey.byteLength Signature.byteLength
  omega

/-- A keyblock whose size is that of its fields has an encoding, since its parts are no longer than
the size says. -/
theorem encode_ok {k : Keyblock} (h : k.size.toNat = k.byteLength) : ∃ bs, k.encode = .ok bs := by
  have hs := k.size.toNat_lt
  unfold byteLength PackedKey.byteLength Signature.byteLength at h
  obtain ⟨key, hkey⟩ := PackedKey.encode_ok (k := k.dataKey) (by unfold word32Bound; omega)
  obtain ⟨blob, hblob⟩ := Signature.encode_ok (s := k.signature) (by unfold word32Bound; omega)
  have checked := checkedBytes_eq_ok.2 ⟨key, hkey, rfl⟩
  exact ⟨_, encode_eq_ok.2 ⟨h, _, signedBytes_eq_ok.2 ⟨_, checked, rfl⟩, blob, hblob, rfl⟩⟩

/-- The signed bytes fix all of a keyblock but its signature. -/
theorem eq_of_signedBytes {k k' : Keyblock} {bs : Bytes} (h : k.signedBytes = .ok bs)
    (h' : k'.signedBytes = .ok bs) (hs : k.signature = k'.signature) : k = k' := by
  obtain ⟨_, hc, rfl⟩ := signedBytes_eq_ok.1 h
  obtain ⟨_, hc', heq⟩ := signedBytes_eq_ok.1 h'
  obtain ⟨key, hkey, rfl⟩ := checkedBytes_eq_ok.1 hc
  obtain ⟨key', hkey', rfl⟩ := checkedBytes_eq_ok.1 hc'
  simp only [List.append_assoc] at heq
  obtain ⟨hversion, heq⟩ := Bytes.le32_append_inj (List.append_cancel_left heq)
  obtain ⟨hsize, heq⟩ := Bytes.le32_append_inj heq
  obtain ⟨hflags, heq⟩ := Bytes.le32_append_inj heq
  obtain ⟨hdata, hsum⟩ := PackedKey.encode_append_inj hkey' hkey heq
  have hflags : k'.flags = k.flags := congrArg KeyblockFlags.mk hflags
  have hsum : k'.checksum = k.checksum := ByteBlock.eq_of_bytes hsum
  cases k
  cases k'
  rw [mk.injEq]
  exact ⟨hversion.symm, hsize.symm, hflags.symm, hdata.symm, hsum.symm, hs⟩

/-! ## Canonical keyblocks -/

/-- A keyblock as it is written: of the version that is understood, of the size of its fields, and
with the checksum of the bytes from the magic to the end of the data key. -/
structure Canonical (k : Keyblock) : Prop where
  version : k.headerVersion = 1
  size : k.size.toNat = k.byteLength
  checksum : ∃ checked, k.checkedBytes = .ok checked ∧ sha256 checked = k.checksum

/-! ## Reading -/

/-- The fields before the data key. -/
def headerBytes (size : UInt32) (flags : KeyblockFlags) : Bytes :=
  magic ++ Bytes.le32 1 ++ Bytes.le32 size ++ Bytes.le32 flags.bits

theorem length_headerBytes (size : UInt32) (flags : KeyblockFlags) :
    (headerBytes size flags).length = headerSize := by
  simp only [headerBytes, List.length_append, length_magic, Bytes.length_le32, headerSize]

theorem exact_readHeader (available : Nat) : Read.Exact (readHeader available) fun _ h bs =>
    h.1.toNat ≤ available ∧ minSize ≤ h.1.toNat ∧ bs = headerBytes h.1 h.2 := by
  refine ((Read.exact_fixed 8).bind fun start => Read.Exact.require <|
    Read.exact_word32.word fun version => Read.Exact.require <|
    Read.exact_word32.word fun size => Read.Exact.require <| Read.Exact.require <|
    Read.exact_word32.word fun flags => Read.exact_pure (size, KeyblockFlags.mk flags)).congr ?_
  rintro pos ⟨size, flags⟩ bs
  constructor
  · rintro ⟨_, _, _, ⟨rfl, -⟩, ⟨rfl, _, _, ⟨rfl, _, _, ⟨ha, hm, _, _, ⟨h, rfl⟩, rfl⟩, rfl⟩, rfl⟩, rfl⟩
    cases h
    exact ⟨ha, hm, by simp [headerBytes, currentVersion]⟩
  · rintro ⟨ha, hm, rfl⟩
    refine ⟨_, _, _, ⟨rfl, length_magic⟩, ⟨rfl, _, _, ⟨rfl, _, _, ⟨ha, hm, _, _, ⟨rfl, rfl⟩, rfl⟩, rfl⟩,
      rfl⟩, ?_⟩
    simp [headerBytes, currentVersion]

/-- The fields after the header are read just where they stand, with the checksum of all that the
record has before it, and up to its end. -/
theorem exact_readFields (record : Bytes) : Read.Exact (readFields record) fun pos f bs =>
    ∃ key blob, f.1.encode = .ok key ∧ f.2.2.encode = .ok blob ∧
      sha256 (record.take (pos + key.length)) = f.2.1 ∧
      bs = key ++ f.2.1.bytes ++ blob ∧ pos + bs.length = record.length := by
  refine (PackedKey.exact_read.bind fun dataKey => Read.Exact.atPosition fun checked =>
    (Read.exact_block 32).word fun checksum => Read.Exact.require <|
    Signature.exact_read.bind fun signature => Read.Exact.atPosition fun actual =>
    Read.Exact.require <| Read.exact_pure (dataKey, checksum, signature)).congr ?_
  rintro pos ⟨dataKey, checksum, signature⟩ bs
  constructor
  · rintro ⟨_, key, _, hkey, ⟨_, _, ⟨hsum, _, blob, _, hblob, ⟨hend, h, rfl⟩, rfl⟩, rfl⟩, rfl⟩
    cases h
    refine ⟨key, blob, hkey, hblob, hsum, by simp, ?_⟩
    simpa [Nat.add_assoc] using hend
  · rintro ⟨key, blob, hkey, hblob, hsum, rfl, hend⟩
    refine ⟨_, key, _, hkey, ⟨_, _, ⟨hsum, _, blob, _, hblob, ⟨?_, rfl, rfl⟩, rfl⟩, rfl⟩, by simp⟩
    simpa [Nat.add_assoc] using hend

/-- The encoding of a keyblock of the version that is understood, by what is read in two parts. -/
theorem encode_eq_ok_of_version {k : Keyblock} (hv : k.headerVersion = 1) {bs : Bytes} :
    k.encode = .ok bs ↔ k.size.toNat = k.byteLength ∧
      ∃ key blob, k.dataKey.encode = .ok key ∧ k.signature.encode = .ok blob ∧
        headerBytes k.size k.flags ++ (key ++ k.checksum.bytes ++ blob) = bs := by
  rw [encode_eq_ok]
  refine and_congr_right fun _ => ?_
  constructor
  · rintro ⟨_, hs, blob, hblob, rfl⟩
    obtain ⟨_, hc, rfl⟩ := signedBytes_eq_ok.1 hs
    obtain ⟨key, hkey, rfl⟩ := checkedBytes_eq_ok.1 hc
    exact ⟨key, blob, hkey, hblob, by simp [headerBytes, hv]⟩
  · rintro ⟨key, blob, hkey, hblob, rfl⟩
    have checked := checkedBytes_eq_ok.2 ⟨key, hkey, rfl⟩
    refine ⟨_, signedBytes_eq_ok.2 ⟨_, checked, rfl⟩, blob, hblob, ?_⟩
    simp [headerBytes, hv]

theorem checkedBytes_eq_ok_of_version {k : Keyblock} (hv : k.headerVersion = 1) {bs : Bytes} :
    k.checkedBytes = .ok bs ↔
      ∃ key, k.dataKey.encode = .ok key ∧ headerBytes k.size k.flags ++ key = bs := by
  rw [checkedBytes_eq_ok, hv]
  rfl

/-- The checksum covers what stands before it in the record. -/
theorem take_record {size : UInt32} {flags : KeyblockFlags} {key checksum blob : Bytes} :
    (headerBytes size flags ++ (key ++ checksum ++ blob)).take (headerSize + key.length) =
      headerBytes size flags ++ key := by
  refine take_eq_of_isPrefix ⟨checksum ++ blob, by simp⟩ ?_
  rw [List.length_append, length_headerBytes]

/-- A keyblock is read just if it is canonical and its encoding stands at the start. -/
theorem parse_eq_ok_iff {k : Keyblock} {bs : Bytes} :
    parse bs = .ok k ↔ k.Canonical ∧ ∃ e, k.encode = .ok e ∧ e <+: bs := by
  simp only [parse, bind_eq_ok, pure_eq_ok, (exact_readHeader _).parse_ok,
    (exact_readFields _).parseFrom_ok]
  constructor
  · rintro ⟨⟨size, flags⟩, ⟨_, ⟨hle, -, rfl⟩, hh⟩, ⟨dataKey, checksum, signature⟩,
      ⟨_, ⟨key, blob, hkey, hblob, hsum, rfl, hend⟩, hf⟩, rfl⟩
    dsimp only at hle hh hkey hblob hsum hend hf ⊢
    -- header and fields were read as two parts of one record of the declared size
    rw [List.length_take_of_le hle] at hend
    rw [← length_headerBytes size flags] at hend hf
    have whole := (framed_prefix_iff hend).2 ⟨hle, hh, hf⟩
    have record := take_eq_of_isPrefix whole (by rw [List.length_append, hend])
    rw [record, take_record] at hsum
    have hsize : size.toNat = headerSize + dataKey.byteLength + checksumSize + signature.byteLength := by
      rw [← hend, length_headerBytes, List.length_append, List.length_append,
        PackedKey.length_encode hkey, Signature.length_encode hblob, checksum.length_eq,
        checksumSize]
      omega
    refine ⟨⟨rfl, hsize, _, (checkedBytes_eq_ok_of_version rfl).2 ⟨key, hkey, rfl⟩, hsum⟩, _,
      (encode_eq_ok_of_version rfl).2 ⟨hsize, key, blob, hkey, hblob, rfl⟩, whole⟩
  · rintro ⟨⟨hv, hsize, checked, hchecked, hsum⟩, e, he, hp⟩
    have hlen := length_encode he
    obtain ⟨-, key, blob, hkey, hblob, rfl⟩ := (encode_eq_ok_of_version hv).1 he
    obtain ⟨_, hkey', rfl⟩ := (checkedBytes_eq_ok_of_version hv).1 hchecked
    obtain rfl := Except.ok.inj (hkey.symm.trans hkey')
    rw [← hsize] at hlen
    -- the fields are read from a record cut to the declared size, and that is the encoding
    have record := take_eq_of_isPrefix hp hlen
    rw [List.length_append] at hlen
    obtain ⟨hle, hh, hf⟩ := (framed_prefix_iff hlen).1 hp
    rw [length_headerBytes] at hf hlen
    refine ⟨(k.size, k.flags), ⟨_, ⟨hle, ?_, rfl⟩, hh⟩, (k.dataKey, k.checksum, k.signature),
      ⟨_, ⟨key, blob, hkey, hblob, ?_, rfl, ?_⟩, hf⟩, ?_⟩
    · rw [hsize]
      exact minSize_le_byteLength k
    · rw [record, take_record]
      exact hsum
    · rw [List.length_take_of_le hle]
      exact hlen
    · cases k
      cases hv
      rfl

/-- A keyblock that is read is encoded as the bytes that it was read from, and is read from them
alone. -/
theorem encode_of_parse {k : Keyblock} {bs : Bytes} (h : parse bs = .ok k) :
    k.encode = .ok (bs.take k.byteLength) ∧ parse (bs.take k.byteLength) = .ok k := by
  obtain ⟨canonical, e, he, hp⟩ := parse_eq_ok_iff.1 h
  rw [take_eq_of_isPrefix hp (length_encode he)]
  exact ⟨he, parse_eq_ok_iff.2 ⟨canonical, e, he, List.prefix_refl e⟩⟩

end Keyblock
end VerifiedBoot
