/-
Root-of-trust blobs are read back as they were built. Whether there is a blob to read depends on its
header and on the size of what is there; a blob that was built says in its header where each piece
is, one right after the other, so that any part of it that holds them all is read, with the identifier
and the keys it was built from, and any shorter one is refused with the size that is needed.
-/
import VerifiedBoot.Image.Gbb
import VerifiedBoot.Proofs.Codec.Record
import VerifiedBoot.Proofs.Codec.Text
import VerifiedBoot.Proofs.Image.Parts

namespace VerifiedBoot

/-! ## Headers -/

namespace GbbHeader

theorem length_encode (h : GbbHeader) : h.encode.length = byteLength := by
  simp only [encode, List.length_append, Bytes.length_le16, Bytes.length_le32]
  rfl

/-- A header is read just where its encoding stands. -/
theorem exact_read : Read.Exact read fun _ h bs => bs = h.encode := by
  refine ((Read.exact_fixed 4).bind fun start => Read.Exact.require <|
    Read.exact_word16.word fun majorVersion => Read.exact_word16.word fun minorVersion =>
    Read.exact_word32.word fun headerSize => Read.exact_word32.word fun flags =>
    Read.exact_word32.word fun hwidOffset => Read.exact_word32.word fun hwidSize =>
    Read.exact_word32.word fun rootKeyOffset => Read.exact_word32.word fun rootKeySize =>
    Read.exact_word32.word fun recoveryKeyOffset => Read.exact_word32.word fun recoveryKeySize =>
    Read.exact_pure (GbbHeader.mk majorVersion minorVersion headerSize flags hwidOffset hwidSize
      rootKeyOffset rootKeySize recoveryKeyOffset recoveryKeySize)).congr ?_
  intro pos h bs
  constructor
  · rintro ⟨_, _, _, ⟨rfl, -⟩, ⟨rfl, _, _, ⟨_, _, ⟨_, _, ⟨_, _, ⟨_, _, ⟨_, _, ⟨_, _, ⟨_, _, ⟨_, _,
      ⟨_, _, ⟨rfl, rfl⟩, rfl⟩, rfl⟩, rfl⟩, rfl⟩, rfl⟩, rfl⟩, rfl⟩, rfl⟩, rfl⟩, rfl⟩, rfl⟩
    simp [encode]
  · rintro rfl
    exact ⟨_, _, _, ⟨rfl, rfl⟩, ⟨rfl, _, _, ⟨_, _, ⟨_, _, ⟨_, _, ⟨_, _, ⟨_, _, ⟨_, _, ⟨_, _, ⟨_, _,
      ⟨_, _, ⟨rfl, rfl⟩, rfl⟩, rfl⟩, rfl⟩, rfl⟩, rfl⟩, rfl⟩, rfl⟩, rfl⟩, rfl⟩, rfl⟩, by
        simp [encode]⟩

end GbbHeader

namespace Gbb

/-- Where a header of the current version stands, a blob is read just if all that it points to is
there, and otherwise refused with the size that is needed. -/
theorem parse_of_header {area : Bytes} {h : GbbHeader} (stands : h.encode <+: area)
    (version : h.majorVersion = GbbHeader.currentMajor)
    (size : GbbHeader.byteLength ≤ h.headerSize.toNat) :
    parse area = if area.length < h.requiredSize
      then .error (.outOfBounds h.requiredSize area.length) else .ok ⟨h, area⟩ := by
  have read : GbbHeader.read.parse area = .ok h := GbbHeader.exact_read.parse_ok.2 ⟨_, rfl, stands⟩
  unfold parse
  rw [read]
  show (if _ then _ else if _ then _ else if _ then _ else _) = _
  rw [if_neg (not_not.2 version), if_neg (not_lt.2 size)]
  rfl

/-! ## Pieces -/

/-- The bytes of a key that may be missing. -/
def keyBytes (key : Option PackedKey) : Bytes := key.elim [] PackedKey.toBytes

/-- The size of header, identifier with its zero byte, and keys together. -/
def usedSize (hwid : String) (rootKey recoveryKey : Option PackedKey) : Nat :=
  GbbHeader.byteLength + (hwid.utf8ByteSize + 1) + rootKey.elim 0 PackedKey.byteLength
    + recoveryKey.elim 0 PackedKey.byteLength

/-- Keys with material that can be encoded. -/
def Encodable (key : Option PackedKey) : Prop := ∀ k ∈ key, k.material.length < word32Bound

theorem length_keyBytes {key : Option PackedKey} (h : Encodable key) :
    (keyBytes key).length = key.elim 0 PackedKey.byteLength := by
  cases key with
  | none => rfl
  | some k => exact PackedKey.length_encode (PackedKey.encode_toBytes (h k rfl))

/-- Where the bytes of a key are, that key is read; where there are none, it is missing. -/
theorem keyIn_of_part {g : Gbb} {r : OffsetRange} {key : Option PackedKey} (h : Encodable key)
    (part : g.part r = keyBytes key) : g.keyIn r = key.elim (.error .truncated) .ok := by
  unfold keyIn
  rw [part]
  cases key with
  | none => rfl
  | some k =>
    have encoded := PackedKey.encode_toBytes (h k rfl)
    have size : k.toBytes.length = PackedKey.headerSize + k.material.length :=
      PackedKey.length_encode encoded
    show (if k.toBytes.length < _ then _ else PackedKey.parse k.toBytes) = .ok k
    rw [if_neg (by omega)]
    exact PackedKey.exact_read.parse_ok.2 ⟨_, encoded, List.prefix_rfl⟩

theorem hwid_of_part {g : Gbb} {hwid : String}
    (part : g.part g.header.hwidRange = Bytes.ofText hwid ++ [0]) : g.hwid = beforeZero hwid := by
  rw [Gbb.hwid, part, Bytes.untilZero_ofText, Utf8.decodeLossy_ofText]

/-! ## Building -/

/-- A header that gives the place of each piece of a blob: the first one follows the header, and
each other one the piece before it. -/
structure Locates (h : GbbHeader) (flags : UInt32) (hwid rootKey recoveryKey : Bytes) : Prop where
  version : h.majorVersion = GbbHeader.currentMajor
  size : h.headerSize.toNat = GbbHeader.byteLength
  flags : h.flags = flags
  hwidStart : h.hwidOffset.toNat = GbbHeader.byteLength
  hwidSize : h.hwidSize.toNat = hwid.length
  rootKeyStart : h.rootKeyOffset.toNat = GbbHeader.byteLength + hwid.length
  rootKeySize : h.rootKeySize.toNat = rootKey.length
  recoveryKeyStart : h.recoveryKeyOffset.toNat
    = GbbHeader.byteLength + hwid.length + rootKey.length
  recoveryKeySize : h.recoveryKeySize.toNat = recoveryKey.length

variable {hwid : String} {flags : UInt32} {rootKey recoveryKey : Option PackedKey} {size : Nat}

theorem locates_of_headerFor {h : GbbHeader} {hwidBytes rootBytes recoveryBytes : Bytes}
    (made : headerFor flags hwidBytes rootBytes recoveryBytes = .ok h) :
    Locates h flags hwidBytes rootBytes recoveryBytes := by
  simp only [headerFor, bind_eq_ok, pure_eq_ok, toLength_eq_ok] at made
  obtain ⟨hwidOffset, h₁, hwidSize, h₂, rootOffset, h₃, rootSize, h₄, recoveryOffset, h₅,
    recoverySize, h₆, rfl⟩ := made
  exact ⟨rfl, rfl, rfl, h₁, h₂, h₃, h₄, h₅, h₆⟩

/-- A blob is its header, the pieces in order, and whatever fills it up. -/
theorem build_eq_ok {b : Bytes} (h : build hwid flags rootKey recoveryKey size = .ok b) :
    b.length = size ∧ ∃ header t, Locates header flags (Bytes.ofText hwid ++ [0]) (keyBytes rootKey)
        (keyBytes recoveryKey) ∧
      b = header.encode ++ (Bytes.ofText hwid ++ [0]) ++ keyBytes rootKey ++ keyBytes recoveryKey ++ t := by
  unfold build at h
  simp only [refuse_eq_ok, bind_eq_ok, pure_eq_ok, liftCodec_eq_ok] at h
  obtain ⟨room, header, made, -, -, rfl⟩ := h
  refine ⟨Bytes.length_padTo 0 ?_, header, _, locates_of_headerFor made, rfl⟩
  rw [not_lt] at room
  simp only [List.length_append, GbbHeader.length_encode] at room ⊢
  exact room

/-- Of a length that is too large, nothing else is said. -/
theorem failsOnly_toLength (part : EncodedPart) (n : Nat) :
    FailsOnly (· = .nonCanonical part) (toLength part n) := by
  unfold toLength
  split
  · exact .ok _
  · exact .error rfl

theorem failsOnly_headerFor (flags : UInt32) (hwidBytes rootBytes recoveryBytes : Bytes) :
    FailsOnly (· = .nonCanonical .blobOffset) (headerFor flags hwidBytes rootBytes recoveryBytes) :=
  .bind (failsOnly_toLength _ _) fun _ _ => .bind (failsOnly_toLength _ _) fun _ _ =>
    .bind (failsOnly_toLength _ _) fun _ _ => .bind (failsOnly_toLength _ _) fun _ _ =>
    .bind (failsOnly_toLength _ _) fun _ _ => .bind (failsOnly_toLength _ _) fun _ _ => .ok _

theorem usedSize_eq (hr : Encodable rootKey) (hc : Encodable recoveryKey) :
    GbbHeader.byteLength + (Bytes.ofText hwid ++ [0]).length + (keyBytes rootKey).length
      + (keyBytes recoveryKey).length = usedSize hwid rootKey recoveryKey := by
  rw [length_keyBytes hr, length_keyBytes hc, List.length_append, Bytes.length_ofText]
  rfl

/-- Once the pieces have room, what is left are the words for offsets and sizes, and the memory. -/
theorem failsOnly_build (hr : Encodable rootKey) (hc : Encodable recoveryKey)
    (room : usedSize hwid rootKey recoveryKey ≤ size) :
    FailsOnly (fun e => e = .codec (.nonCanonical .blobOffset) ∨ e = .stopped .capacity)
      (build hwid flags rootKey recoveryKey size) := by
  -- the definition counts the bytes that it writes, which encodable keys have as many of as they say
  rw [← usedSize_eq hr hc] at room
  have words := failsOnly_headerFor flags (Bytes.ofText hwid ++ [0]) (keyBytes rootKey)
    (keyBytes recoveryKey)
  unfold build
  show FailsOnly _ (if size < GbbHeader.byteLength + (Bytes.ofText hwid ++ [0]).length
    + (keyBytes rootKey).length + (keyBytes recoveryKey).length then _ else _)
  rw [if_neg (not_lt.2 room)]
  refine FailsOnly.bind (words.mapError fun e he => .inl (congrArg Error.codec he)) fun header _ => ?_
  exact (FailsOnly.ensureCapacity (.inr rfl) size).bind fun _ _ => .ok _

/-- A blob is refused for want of room just if its pieces need more than there is, before anything
else is looked at. -/
theorem build_eq_areaTooSmall_iff (hr : Encodable rootKey) (hc : Encodable recoveryKey)
    {needed available : Nat} :
    build hwid flags rootKey recoveryKey size = .error (.codec (.areaTooSmall needed available)) ↔
      size < usedSize hwid rootKey recoveryKey ∧ needed = usedSize hwid rootKey recoveryKey ∧
        available = size := by
  by_cases short : size < usedSize hwid rootKey recoveryKey
  · have refused : build hwid flags rootKey recoveryKey size
        = .error (.codec (.areaTooSmall (usedSize hwid rootKey recoveryKey) size)) := by
      rw [← usedSize_eq hr hc] at short ⊢
      exact if_pos short
    rw [refused]
    simp only [Except.error.injEq, Error.codec.injEq, CodecError.areaTooSmall.injEq, short, true_and,
      eq_comm]
  · refine iff_of_false (fun refused => ?_) fun h => short h.1
    rcases failsOnly_build hr hc (not_lt.1 short) _ refused with other | other
    · cases other
    · cases other

/-! ## Reading what was built -/

namespace Locates
variable {h : GbbHeader} {hwidBytes rootBytes recoveryBytes : Bytes}

theorem requiredSize (l : Locates h flags hwidBytes rootBytes recoveryBytes) :
    h.requiredSize
      = GbbHeader.byteLength + hwidBytes.length + rootBytes.length + recoveryBytes.length := by
  simp only [GbbHeader.requiredSize, GbbHeader.hwidRange, GbbHeader.rootKeyRange,
    GbbHeader.recoveryKeyRange, OffsetRange.ofSize, l.size, l.hwidStart, l.hwidSize, l.rootKeyStart,
    l.rootKeySize, l.recoveryKeyStart, l.recoveryKeySize]
  omega

/-- In any part of a blob that has them all, each piece is where the header says. -/
theorem parts (l : Locates h flags hwidBytes rootBytes recoveryBytes) (t : Bytes) {m : Nat}
    (hm : h.requiredSize ≤ m) :
    let g : Gbb := ⟨h, (h.encode ++ hwidBytes ++ rootBytes ++ recoveryBytes ++ t).take m⟩
    g.part h.hwidRange = hwidBytes ∧ g.part h.rootKeyRange = rootBytes ∧
      g.part h.recoveryKeyRange = recoveryBytes := by
  rw [l.requiredSize] at hm
  have start := h.length_encode
  simp only [part, GbbHeader.hwidRange, GbbHeader.rootKeyRange, GbbHeader.recoveryKeyRange,
    OffsetRange.ofSize, l.hwidStart, l.hwidSize, l.rootKeyStart, l.rootKeySize, l.recoveryKeyStart,
    l.recoveryKeySize, ← start] at hm ⊢
  refine ⟨?_, ?_, ?_⟩
  · rw [Bytes.between_take (by omega), List.append_assoc, List.append_assoc]
    exact Bytes.between_append _ _ _
  · rw [Bytes.between_take (by omega), List.append_assoc, ← List.length_append]
    exact Bytes.between_append _ _ _
  · rw [Bytes.between_take (by omega), ← List.length_append, ← List.length_append]
    exact Bytes.between_append _ _ _

end Locates

/-- A blob that was built has the size that was asked for. Its first bytes, as many as its header
says are needed or more, are read as the blob with the flags, the identifier up to its first zero
character and the keys that it was built from, and a key that was not given is missing; if they hold
the header and not all that is needed, they are refused with the size that is. A blob is refused for
want of room just if header, identifier with its zero byte and keys are longer than what was asked
for. -/
theorem built_blob_read_back (hwid : String) (flags : UInt32) (rootKey recoveryKey : Option PackedKey)
    (size : Nat) (rootFits : ∀ k ∈ rootKey, k.material.length < 2 ^ 32)
    (recoveryFits : ∀ k ∈ recoveryKey, k.material.length < 2 ^ 32) :
    (∀ b, build hwid flags rootKey recoveryKey size = .ok b → b.length = size ∧
      ∃ header, GbbHeader.read.parse b = .ok header ∧
        header.requiredSize = usedSize hwid rootKey recoveryKey ∧
        (∀ m, header.requiredSize ≤ m → ∃ g, parse (b.take m) = .ok g ∧ g.header = header ∧
          g.header.flags = flags ∧
          g.hwid = String.ofList (hwid.toList.takeWhile (· ≠ Char.ofNat 0)) ∧
          g.rootKey = rootKey.elim (.error .truncated) .ok ∧
          g.recoveryKey = recoveryKey.elim (.error .truncated) .ok) ∧
        ∀ m, 40 ≤ m → m < header.requiredSize →
          parse (b.take m) = .error (.outOfBounds header.requiredSize m)) ∧
    ∀ needed available,
      build hwid flags rootKey recoveryKey size = .error (.codec (.areaTooSmall needed available)) ↔
        size < usedSize hwid rootKey recoveryKey ∧ needed = usedSize hwid rootKey recoveryKey ∧
          available = size := by
  have hr : Encodable rootKey := rootFits
  have hc : Encodable recoveryKey := recoveryFits
  refine ⟨fun b built => ?_, fun needed available => build_eq_areaTooSmall_iff hr hc⟩
  obtain ⟨length, header, t, located, rfl⟩ := build_eq_ok built
  have used : header.requiredSize = usedSize hwid rootKey recoveryKey := by
    rw [located.requiredSize, usedSize_eq hr hc]
  have fits : header.requiredSize ≤ size := by
    simp only [List.length_append, GbbHeader.length_encode] at length
    rw [located.requiredSize, List.length_append]
    omega
  have pieces := fun m (hm : header.requiredSize ≤ m) => located.parts t hm
  have stands : header.encode <+: header.encode ++ (Bytes.ofText hwid ++ [0]) ++ keyBytes rootKey
      ++ keyBytes recoveryKey ++ t := by
    simp only [List.append_assoc]
    exact List.prefix_append _ _
  generalize header.encode ++ (Bytes.ofText hwid ++ [0]) ++ keyBytes rootKey ++ keyBytes recoveryKey
    ++ t = b at length pieces stands
  have read := fun m (hm : GbbHeader.byteLength ≤ m) => parse_of_header
    (List.prefix_take_iff.2 ⟨stands, header.length_encode ▸ hm⟩) located.version located.size.ge
  refine ⟨length, header, GbbHeader.exact_read.parse_ok.2 ⟨_, rfl, stands⟩, used, fun m hm => ?_,
    fun m hm short => ?_⟩
  · have whole := read m (by rw [used, usedSize] at hm; omega)
    rw [List.length_take, length, if_neg (by omega)] at whole
    obtain ⟨hwidPart, rootPart, recoveryPart⟩ := pieces m hm
    exact ⟨_, whole, rfl, located.flags, hwid_of_part hwidPart, keyIn_of_part hr rootPart,
      keyIn_of_part hc recoveryPart⟩
  · rw [read m hm, List.length_take, length, Nat.min_eq_left (by omega), if_pos short]

/-- A blob with an identifier that has a zero character in it, a root key of one byte and no recovery
key: 61 bytes are needed, and three more fill it up. -/
theorem keyed_blob_read_back : ∃ b, build "BOARD\x00X" 7 (some ⟨1, 5, [7]⟩) none 64 = .ok b ∧
    (∃ g, parse b = .ok g ∧ g.header.flags = 7 ∧ g.hwid = "BOARD" ∧
      g.rootKey = .ok ⟨1, 5, [7]⟩ ∧ g.recoveryKey = .error .truncated) ∧
    parse (b.take 60) = .error (.outOfBounds 61 60) ∧
    build "BOARD\x00X" 7 (some ⟨1, 5, [7]⟩) none 60 = .error (.codec (.areaTooSmall 61 60)) := by
  obtain ⟨b, built⟩ : ∃ b, build "BOARD\x00X" 7 (some ⟨1, 5, [7]⟩) none 64 = .ok b := ⟨_, rfl⟩
  have keyFits : ∀ k ∈ some (PackedKey.mk 1 5 [7]), k.material.length < 2 ^ 32 := by decide
  obtain ⟨read, -⟩ := built_blob_read_back "BOARD\x00X" 7 _ none 64 keyFits (by decide)
  obtain ⟨-, small⟩ := built_blob_read_back "BOARD\x00X" 7 _ none 60 keyFits (by decide)
  obtain ⟨length, header, -, used, whole, cut⟩ := read b built
  have needed : header.requiredSize = 61 := used.trans (by decide +kernel)
  rw [needed] at whole cut
  obtain ⟨g, parsed, -, hflags, hhwid, hroot, hrecovery⟩ := whole 64 (by decide)
  rw [List.take_of_length_le length.le] at parsed
  exact ⟨b, built, ⟨g, parsed, hflags, hhwid.trans (by decide +kernel), hroot, hrecovery⟩,
    cut 60 (by decide) (by decide), (small 61 60).2 (by decide +kernel)⟩

end Gbb
end VerifiedBoot
