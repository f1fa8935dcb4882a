/-
Packed keys and signatures delimit themselves. Each is a header of words, a length, and as many bytes:
at every position of a buffer it is read just where its encoding stands, and the reader is then right
behind it. What is cut off before its end is refused: truncated up to the length, and out of bounds
after it, as every length is that says more than there is.
-/
import VerifiedBoot.Proofs.Codec.Fields

namespace VerifiedBoot

namespace Read

variable {α β : Type} {read : Read α} {next : α → Read β} {a : α} {x y ahead : Bytes} {e : CodecError}

/-! ## Reads that fail -/

/-- The read fails for a cause where just these bytes are ahead. -/
def FailsOn (read : Read α) (ahead : Bytes) (e : CodecError) : Prop :=
  ∀ r : Reader, r.ahead = ahead → ∃ r', read r = .error e r'

theorem FailsOn.bind (h : FailsOn read ahead e) (next : α → Read β) :
    FailsOn (read >>= next) ahead e := by
  intro r hr
  obtain ⟨r', failed⟩ := h r hr
  exact ⟨r', run_bind_of_error failed⟩

/-- Behind a part that is read, what comes next fails. -/
theorem Exact.failsOn_bind {written : Nat → α → Bytes → Prop} (h : Exact read written)
    (hx : ∀ pos, written pos a x) (hy : FailsOn (next a) y e) :
    FailsOn (read >>= next) (x ++ y) e := by
  intro r hr
  have first : read r = .ok a (r.skip x.length) :=
    (h r a _).2 ⟨x, hx r.position, hr ▸ List.prefix_append x y, rfl⟩
  have behind : (r.skip x.length).ahead = y := by
    rw [Reader.ahead_skip, hr, List.drop_left]
  obtain ⟨r', failed⟩ := hy _ behind
  exact ⟨r', (run_bind_of_ok first).trans failed⟩

theorem failsOn_fixed {f : Bytes → α} {n : Nat} (h : ahead.length < n) :
    FailsOn (do return f (← fixed n) : Read α) ahead .truncated := by
  intro r hr
  exact ⟨_, map_fixed_of_short (by rwa [Reader.remaining_eq, hr])⟩

theorem failsOn_word8 : FailsOn word8 [] .truncated := failsOn_fixed Nat.zero_lt_one

theorem failsOn_word32 (h : ahead.length < 4) : FailsOn word32 ahead .truncated := failsOn_fixed h

/-- A length that says more than there is. -/
theorem failsOn_counting {size : UInt32} {tail : Bytes} (long : tail.length < size.toNat) :
    FailsOn counting (Bytes.le32 size ++ tail) (.outOfBounds size.toNat tail.length) := by
  refine exact_word32.failsOn_bind (fun _ => rfl) fun r hr => ?_
  have left : r.remaining = tail.length := by
    rw [Reader.remaining_eq, hr]
  exact ⟨r, left ▸ counted_of_short (by rwa [left])⟩

/-! ## Reads that are cut off -/

/-- How the read of a record fails of which there are only `n` bytes: it is truncated in the header, and
behind it out of bounds, as the header says how many bytes there should be. -/
def cutFailure (headerSize blobSize n : Nat) : CodecError :=
  if n < headerSize then .truncated else .outOfBounds blobSize (n - headerSize)

/-- The read fails on each part of an encoding that is cut off before its end. -/
def FailsCut (read : Read α) (encoding : Bytes) (headerSize blobSize : Nat) : Prop :=
  ∀ n < encoding.length, FailsOn read (encoding.take n) (cutFailure headerSize blobSize n)

variable {headerSize blobSize : Nat}

theorem FailsCut.bind (h : FailsCut read x headerSize blobSize) (next : α → Read β) :
    FailsCut (read >>= next) x headerSize blobSize :=
  fun n hn => (h n hn).bind next

/-- A part of fixed size in front of a record belongs to its header. -/
theorem Exact.failsCut_bind {written : Nat → α → Bytes → Prop} (h : Exact read written)
    (hx : ∀ pos, written pos a x) (short : ∀ y, y.length < x.length → FailsOn read y .truncated)
    (hy : FailsCut (next a) y headerSize blobSize) :
    FailsCut (read >>= next) (x ++ y) (headerSize + x.length) blobSize := by
  intro n hn
  rw [List.length_append] at hn
  by_cases inside : n < x.length
  · have part : (x ++ y).take n = x.take n := List.take_append_of_le_length inside.le
    have failure : cutFailure (headerSize + x.length) blobSize n = .truncated :=
      if_pos (Nat.lt_add_left headerSize inside)
    rw [part, failure]
    exact (short _ (by rw [List.length_take]; omega)).bind next
  · have parts : (x ++ y).take n = x ++ y.take (n - x.length) := by
      rw [List.take_append, List.take_of_length_le (not_lt.1 inside)]
    have failure : cutFailure (headerSize + x.length) blobSize n
        = cutFailure headerSize blobSize (n - x.length) := by
      have order : n < headerSize + x.length ↔ n - x.length < headerSize := by omega
      simp only [cutFailure, order, Nat.sub_sub, Nat.add_comm]
    rw [parts, failure]
    exact h.failsOn_bind hx (hy _ (by omega))

theorem failsCut_word32 {w : UInt32} {next : UInt32 → Read β}
    (h : FailsCut (next w) y headerSize blobSize) :
    FailsCut (word32 >>= next) (Bytes.le32 w ++ y) (headerSize + 4) blobSize :=
  exact_word32.failsCut_bind (fun _ => rfl) (fun _ => failsOn_word32) h

theorem failsCut_counting {bs field : Bytes} (h : countedField bs = .ok field) :
    FailsCut counting field 4 bs.length := by
  obtain ⟨w, hw, rfl⟩ := countedField_eq_ok.1 h
  show FailsCut counting _ (0 + 4) _
  refine failsCut_word32 fun n hn r hr => ?_
  have left : r.remaining = n := by
    rw [Reader.remaining_eq, hr, List.length_take, Nat.min_eq_left hn.le]
  have short : r.remaining < w.toNat := by rwa [left, hw]
  refine ⟨r, ?_⟩
  rw [counted_of_short short, left, hw]
  rfl

/-! ## Records that delimit themselves -/

/-- At every position of a buffer a value is read just where its encoding stands, which is a header and
a blob, and the reader is then right behind it. What is cut off before the end of the encoding is
refused. -/
structure Delimits (read : Read α) (v : α) (encoding : Bytes) (headerSize blobSize : Nat) : Prop where
  length_eq : encoding.length = headerSize + blobSize
  read_iff : ∀ bs pos r, read (Reader.ofBytes bs pos) = .ok v r ↔
    encoding <+: bs.drop pos ∧ r = Reader.ofBytes bs (pos + encoding.length)
  cut : FailsCut read encoding headerSize blobSize

/-- An exact read delimits what it reads, if it fails as it should on what is cut off. -/
theorem Exact.delimits {encode : α → Except CodecError Bytes} {v : α} {encoding : Bytes}
    (h : Exact read fun _ v bs => encode v = .ok bs) (encoded : encode v = .ok encoding)
    (length : encoding.length = headerSize + blobSize)
    (cut : FailsCut read encoding headerSize blobSize) :
    Delimits read v encoding headerSize blobSize where
  length_eq := length
  read_iff bs pos r := by
    rw [h, ← Reader.ofBytes_skip]
    constructor
    · rintro ⟨x, hx, stands, rfl⟩
      cases encoded.symm.trans hx
      exact ⟨stands, rfl⟩
    · rintro ⟨stands, rfl⟩
      exact ⟨encoding, encoded, stands, rfl⟩
  cut := cut

theorem Delimits.parse_iff {v : α} {encoding : Bytes}
    (h : Delimits read v encoding headerSize blobSize) (bs : Bytes) :
    read.parse bs = .ok v ↔ encoding <+: bs := by
  have first : read.parse bs = .ok v ↔ ∃ r, read (Reader.ofBytes bs 0) = .ok v r := by
    unfold Read.parse parseFrom start
    cases read (Reader.ofBytes bs 0) <;> simp
  simp only [first, h.read_iff, exists_and_left, exists_eq, and_true, List.drop_zero]

end Read

/-! ## Packed keys -/

namespace PackedKey

theorem delimits {k : PackedKey} {bs : Bytes} (h : k.encode = .ok bs) :
    read.Delimits k bs headerSize k.material.length := by
  refine exact_read.delimits h (length_encode h) ?_
  obtain ⟨field, counted, rfl⟩ := encode_eq_ok.1 h
  rw [List.append_assoc]
  refine Read.failsCut_word32 ?_
  refine Read.failsCut_word32 ?_
  exact (Read.failsCut_counting counted).bind _

/-- A key is refused whose length says more than there is. -/
theorem failsOn_read (algorithm version : UInt32) {size : UInt32} {tail : Bytes}
    (long : tail.length < size.toNat) :
    read.FailsOn (Bytes.le32 algorithm ++ (Bytes.le32 version ++ (Bytes.le32 size ++ tail)))
      (.outOfBounds size.toNat tail.length) := by
  refine Read.exact_word32.failsOn_bind (fun _ => rfl) ?_
  refine Read.exact_word32.failsOn_bind (fun _ => rfl) ?_
  exact (Read.failsOn_counting long).bind _

end PackedKey

/-! ## Signatures -/

namespace Signature

theorem failsCut_readKind {β : Type} {kind : SignatureKind} {next : SignatureKind → Read β} {y : Bytes}
    {headerSize blobSize : Nat} (h : (next kind).FailsCut y headerSize blobSize) :
    (readKind >>= next).FailsCut (kind.toByte :: y) (headerSize + 1) blobSize := by
  refine exact_readKind.failsCut_bind (x := [kind.toByte]) (fun _ => rfl) (fun y hy => ?_) h
  rw [List.length_eq_zero_iff.1 (Nat.lt_one_iff.1 hy)]
  exact Read.failsOn_word8.bind _

theorem delimits {s : Signature} {bs : Bytes} (h : s.encode = .ok bs) :
    read.Delimits s bs headerSize s.blob.length := by
  refine exact_read.delimits h (length_encode h) ?_
  obtain ⟨field, counted, rfl⟩ := encode_eq_ok.1 h
  rw [List.append_assoc]
  refine failsCut_readKind ?_
  refine Read.failsCut_word32 ?_
  refine Read.failsCut_word32 ?_
  exact (Read.failsCut_counting counted).bind _

/-- A signature is refused whose length says more than there is. -/
theorem failsOn_read (kind : SignatureKind) (algorithm dataSize : UInt32) {size : UInt32} {tail : Bytes}
    (long : tail.length < size.toNat) :
    read.FailsOn (kind.toByte
        :: (Bytes.le32 algorithm ++ (Bytes.le32 dataSize ++ (Bytes.le32 size ++ tail))))
      (.outOfBounds size.toNat tail.length) := by
  refine exact_readKind.failsOn_bind (x := [kind.toByte]) (fun _ => rfl) ?_
  refine Read.exact_word32.failsOn_bind (fun _ => rfl) ?_
  refine Read.exact_word32.failsOn_bind (fun _ => rfl) ?_
  exact (Read.failsOn_counting long).bind _

/-- The byte of a kind must be one that a kind has. -/
theorem failsOn_read_of_kind {b : UInt8} (classical : b ≠ 0) (digest : b ≠ 1) (tail : Bytes) :
    read.FailsOn (b :: tail) (.nonCanonical .signatureKind) := by
  have unknown : SignatureKind.ofByte b = .error (.nonCanonical .signatureKind) := by
    rw [SignatureKind.ofByte, if_neg classical, if_neg digest]
  refine Read.FailsOn.bind ?_ _
  refine Read.exact_word8.failsOn_bind (x := [b]) (a := b) (fun _ => rfl) fun r _ => ?_
  rw [unknown]
  exact ⟨r, rfl⟩

end Signature

/-! ## Both of them -/

/-- A packed key is parsed just from bytes that begin with its encoding, and a signature too, and what
is parsed can be encoded. At every position of a buffer each is read where its encoding stands, and the
reader moves by the length of the encoding. What is cut off before the end of an encoding is refused,
and so is every length that says more than there is, and a signature of no known kind. -/
theorem packed_records_exact :
    (∀ k : PackedKey, k.material.length < 2 ^ 32 → k.toBytes.length = k.byteLength ∧
      (∀ bs, PackedKey.parse bs = .ok k ↔ k.toBytes <+: bs) ∧
      PackedKey.read.Delimits k k.toBytes 12 k.material.length) ∧
    (∀ s : Signature, s.blob.length < 2 ^ 32 → ∃ encoding, s.encode = .ok encoding ∧
      encoding.length = s.byteLength ∧ (∀ bs, Signature.parse bs = .ok s ↔ encoding <+: bs) ∧
      Signature.read.Delimits s encoding 13 s.blob.length) ∧
    (∀ bs k, PackedKey.parse bs = .ok k → k.material.length < 2 ^ 32) ∧
    (∀ bs s, Signature.parse bs = .ok s → s.blob.length < 2 ^ 32) ∧
    (∀ (algorithm version size : UInt32) (tail : Bytes), tail.length < size.toNat →
      PackedKey.read.FailsOn
        (Bytes.le32 algorithm ++ (Bytes.le32 version ++ (Bytes.le32 size ++ tail)))
        (.outOfBounds size.toNat tail.length)) ∧
    (∀ (kind : SignatureKind) (algorithm dataSize size : UInt32) (tail : Bytes),
      tail.length < size.toNat →
      Signature.read.FailsOn (kind.toByte
          :: (Bytes.le32 algorithm ++ (Bytes.le32 dataSize ++ (Bytes.le32 size ++ tail))))
        (.outOfBounds size.toNat tail.length)) ∧
    ∀ (b : UInt8) (tail : Bytes), b ≠ 0 → b ≠ 1 →
      Signature.read.FailsOn (b :: tail) (.nonCanonical .signatureKind) := by
  refine ⟨fun k hk => ?_, fun s hs => ?_, fun bs k parsed => ?_, fun bs s parsed => ?_,
    fun algorithm version size tail => PackedKey.failsOn_read algorithm version,
    fun kind algorithm dataSize size tail => Signature.failsOn_read kind algorithm dataSize,
    fun b tail classical digest => Signature.failsOn_read_of_kind classical digest tail⟩
  · have encoded := PackedKey.encode_toBytes hk
    have exact := PackedKey.delimits encoded
    exact ⟨PackedKey.length_encode encoded, exact.parse_iff, exact⟩
  · obtain ⟨encoding, encoded⟩ := Signature.encode_ok hs
    have exact := Signature.delimits encoded
    exact ⟨encoding, encoded, Signature.length_encode encoded, exact.parse_iff, exact⟩
  · obtain ⟨_, encoded, -⟩ := PackedKey.exact_read.parse_ok.1 parsed
    obtain ⟨field, counted, -⟩ := PackedKey.encode_eq_ok.1 encoded
    obtain ⟨w, size, -⟩ := countedField_eq_ok.1 counted
    exact size ▸ w.toNat_lt
  · obtain ⟨_, encoded, -⟩ := Signature.exact_read.parse_ok.1 parsed
    obtain ⟨field, counted, -⟩ := Signature.encode_eq_ok.1 encoded
    obtain ⟨w, size, -⟩ := countedField_eq_ok.1 counted
    exact size ▸ w.toNat_lt

/-- A key with a byte behind it and without its last byte, and a signature as it should be, with the
largest length, and of a kind that there is not. -/
theorem sample_records_exact :
    PackedKey.parse [1, 0, 0, 0, 5, 0, 0, 0, 1, 0, 0, 0, 7, 8] = .ok ⟨1, 5, [7]⟩ ∧
    PackedKey.read.FailsOn [1, 0, 0, 0, 5, 0, 0, 0, 1, 0, 0, 0] (.outOfBounds 1 0) ∧
    Signature.parse [0, 1, 0, 0, 0, 4, 0, 0, 0, 1, 0, 0, 0, 9] = .ok ⟨.classical, 1, 4, [9]⟩ ∧
    Signature.read.FailsOn [0, 1, 0, 0, 0, 4, 0, 0, 0, 0xff, 0xff, 0xff, 0xff, 9]
      (.outOfBounds 0xffffffff 1) ∧
    Signature.read.FailsOn [2, 1, 0, 0, 0, 4, 0, 0, 0, 1, 0, 0, 0, 9] (.nonCanonical .signatureKind) := by
  obtain ⟨keys, signatures, -, -, -, long, unknown⟩ := packed_records_exact
  obtain ⟨-, keyParsed, key⟩ := keys ⟨1, 5, [7]⟩ (by decide)
  obtain ⟨encoding, encoded, -, signatureParsed, -⟩ := signatures ⟨.classical, 1, 4, [9]⟩ (by decide)
  cases encoded
  exact ⟨(keyParsed _).2 (by decide), key.cut 12 (by decide), (signatureParsed _).2 (by decide),
    long .classical 1 4 0xffffffff [9] (by decide), unknown 2 _ (by decide) (by decide)⟩

end VerifiedBoot
