/-
Flash maps are read just where they are written: at an offset of an image, a map is read if and only
if its encoding stands there. Whether there is a map to read depends on the header alone: any bytes
after it are areas, if there are enough of them.
-/
import VerifiedBoot.Proofs.Codec.Reading
import VerifiedBoot.Proofs.Image.Parts

namespace VerifiedBoot

/-! ## Parts that are there -/

/-- Bytes stand at an offset just if they are the slice of their length. -/
theorem Bytes.slice_eq_some_iff_prefix {bs part : Bytes} {start : Nat} (h : part ≠ []) :
    bs.slice start part.length = some part ↔ part <+: bs.drop start := by
  have positive := List.length_pos_iff.2 h
  unfold slice
  rw [List.prefix_iff_eq_take]
  split_ifs with inside
  · rw [Option.some.injEq, eq_comm]
  · refine iff_of_false nofun fun stands => ?_
    -- a part that reaches past the end would be longer than what is left
    have length := congrArg List.length stands
    rw [List.length_take, List.length_drop] at length
    omega

/-- Any bytes of the size of a word are those of a word. -/
theorem Bytes.exists_word {α : Type} (n : Nat) (ofNat : Nat → α) (toNat : α → Nat)
    (right : ∀ k < Nat.pow 256 n, toNat (ofNat k) = k) {bs : Bytes} (h : bs.length = n) :
    ∃ v, ofNatLE n (toNat v) = bs := by
  subst h
  refine ⟨ofNat (toNatLE bs), ?_⟩
  rw [right _ (toNatLE_lt bs), ofNatLE_toNatLE]

theorem Bytes.exists_le16 {bs : Bytes} (h : bs.length = 2) : ∃ v, le16 v = bs :=
  exists_word 2 UInt16.ofNat UInt16.toNat (fun _ hk => UInt16.toNat_ofNat_of_lt' hk) h

theorem Bytes.exists_le32 {bs : Bytes} (h : bs.length = 4) : ∃ v, le32 v = bs :=
  exists_word 4 UInt32.ofNat UInt32.toNat (fun _ hk => UInt32.toNat_ofNat_of_lt' hk) h

/-! ## Areas -/

namespace FlashArea

@[simp] theorem length_encode (a : FlashArea) : a.encode.length = byteLength := by
  simp only [encode, List.length_append, Bytes.length_le32, Bytes.length_le16, a.name.length_eq,
    flashNameSize, byteLength]

/-- An area is read just where its encoding stands. -/
theorem exact_read : Read.Exact read fun _ a bs => bs = a.encode := by
  refine (Read.exact_word32.word fun offset => Read.exact_word32.word fun size =>
    (Read.exact_block flashNameSize).word fun name => Read.exact_word16.word fun flags =>
      Read.exact_pure (FlashArea.mk offset size name flags)).congr ?_
  intro pos a bs
  constructor
  · rintro ⟨_, _, ⟨_, _, ⟨_, _, ⟨_, _, ⟨rfl, rfl⟩, rfl⟩, rfl⟩, rfl⟩, rfl⟩
    simp [encode]
  · rintro rfl
    exact ⟨_, _, ⟨_, _, ⟨_, _, ⟨_, [], ⟨rfl, rfl⟩, rfl⟩, rfl⟩, rfl⟩, by simp [encode]⟩

/-- Any bytes of the size of an area encode one. -/
theorem exists_encode {bs : Bytes} (h : bs.length = byteLength) : ∃ a, encode a = bs := by
  unfold byteLength at h
  have offsetSize : (bs.take 4).length = 4 := by rw [List.length_take]; omega
  have sizeSize : ((bs.drop 4).take 4).length = 4 := by
    rw [List.length_take, List.length_drop]
    omega
  have nameSize : ((bs.drop 8).take 32).length = flashNameSize := by
    rw [List.length_take, List.length_drop, flashNameSize]
    omega
  have flagsSize : (bs.drop 40).length = 2 := by rw [List.length_drop]; omega
  obtain ⟨offset, hoffset⟩ := Bytes.exists_le32 offsetSize
  obtain ⟨size, hsize⟩ := Bytes.exists_le32 sizeSize
  obtain ⟨flags, hflags⟩ := Bytes.exists_le16 flagsSize
  refine ⟨⟨offset, size, ⟨_, nameSize⟩, flags⟩, ?_⟩
  unfold encode
  rw [hoffset, hsize, hflags]
  -- the fields are put together from the last to the first
  calc bs.take 4 ++ (bs.drop 4).take 4 ++ (bs.drop 8).take 32 ++ bs.drop 40
      = bs.take 4 ++ ((bs.drop 4).take 4 ++ ((bs.drop 8).take 32 ++ bs.drop 40)) := by
        simp only [List.append_assoc]
    _ = bs.take 4 ++ ((bs.drop 4).take 4 ++ bs.drop 8) := by
        rw [show bs.drop 40 = (bs.drop 8).drop 32 by rw [List.drop_drop], List.take_append_drop]
    _ = bs.take 4 ++ bs.drop 4 := by
        rw [show bs.drop 8 = (bs.drop 4).drop 4 by rw [List.drop_drop], List.take_append_drop]
    _ = bs := List.take_append_drop 4 bs

/-- A number of areas is read just where their encodings stand one after another. -/
theorem exact_readAll (count : Nat) :
    Read.Exact ((List.replicate count ()).mapM fun _ => read) fun _ areas bs =>
      areas.length = count ∧ bs = areas.flatMap encode := by
  -- the first area is read, and then one area less
  induction count with
  | zero =>
    refine (Read.exact_pure []).congr ?_
    intro pos areas bs
    constructor
    · rintro ⟨rfl, rfl⟩
      exact ⟨rfl, rfl⟩
    · rintro ⟨none, rfl⟩
      obtain rfl := List.length_eq_zero_iff.1 none
      exact ⟨rfl, rfl⟩
  | succ count ih =>
    rw [List.replicate_succ, List.mapM_cons]
    refine (exact_read.word fun a => ih.bind fun areas => Read.exact_pure (a :: areas)).congr ?_
    intro pos areas bs
    constructor
    · rintro ⟨a, _, ⟨rest, _, _, ⟨rfl, rfl⟩, ⟨rfl, rfl⟩, rfl⟩, rfl⟩
      exact ⟨rfl, by simp⟩
    · rintro ⟨length, rfl⟩
      obtain ⟨a, rest, rfl⟩ := List.exists_cons_of_length_eq_add_one length
      exact ⟨a, _, ⟨rest, _, [], ⟨Nat.succ.inj length, rfl⟩, ⟨rfl, rfl⟩, rfl⟩, by simp⟩

theorem length_encodeAll (areas : List FlashArea) :
    (areas.flatMap encode).length = areas.length * byteLength := by
  induction areas with
  | nil => rfl
  | cons a areas ih =>
    rw [List.flatMap_cons, List.length_append, length_encode, ih, List.length_cons, Nat.succ_mul,
      Nat.add_comm]

/-- Any bytes of the size of so many areas encode them. -/
theorem exists_encodeAll {count : Nat} {bs : Bytes} (h : bs.length = count * byteLength) :
    ∃ areas : List FlashArea, areas.length = count ∧ areas.flatMap encode = bs := by
  induction count generalizing bs with
  | zero =>
    rw [Nat.zero_mul] at h
    exact ⟨[], rfl, (List.length_eq_zero_iff.1 h).symm⟩
  | succ count ih =>
    rw [Nat.succ_mul] at h
    have first : (bs.take byteLength).length = byteLength := by rw [List.length_take]; omega
    have rest : (bs.drop byteLength).length = count * byteLength := by rw [List.length_drop]; omega
    obtain ⟨a, ha⟩ := exists_encode first
    obtain ⟨areas, hlength, hareas⟩ := ih rest
    refine ⟨a :: areas, congrArg (· + 1) hlength, ?_⟩
    rw [List.flatMap_cons, ha, hareas, List.take_append_drop]

end FlashArea

/-! ## Headers -/

namespace FlashMap

theorem length_encodeHeader (h : FlashHeader) (count : UInt16) :
    (encodeHeader h count).length = headerSize := by
  simp only [encodeHeader, List.length_append, List.length_cons, List.length_nil, Bytes.length_le64,
    Bytes.length_le32, Bytes.length_le16, h.name.length_eq, flashNameSize, headerSize]
  rfl

theorem exact_readHeader (available : Nat) : Read.Exact (readHeader available) fun _ h bs =>
    h.1.majorVersion = currentMajor ∧ encodedSize h.2 ≤ available ∧
      ∃ count : UInt16, count.toNat = h.2 ∧ bs = encodeHeader h.1 count := by
  refine ((Read.exact_fixed 8).bind fun start => Read.Exact.require <|
    Read.exact_word8.word fun majorVersion => Read.Exact.require <|
    Read.exact_word8.word fun minorVersion => Read.exact_word64.word fun base =>
    Read.exact_word32.word fun size => (Read.exact_block flashNameSize).word fun name =>
    Read.exact_word16.word fun count => Read.Exact.require <|
    Read.exact_pure (FlashHeader.mk majorVersion minorVersion base size name, count.toNat)).congr ?_
  rintro pos ⟨header, count⟩ bs
  constructor
  · rintro ⟨_, _, _, ⟨rfl, -⟩, ⟨rfl, major, _, ⟨hmajor, minor, _, ⟨base, _, ⟨size, _, ⟨name, _,
      ⟨n, _, ⟨fits, h, rfl⟩, rfl⟩, rfl⟩, rfl⟩, rfl⟩, rfl⟩, rfl⟩, rfl⟩
    cases h
    exact ⟨hmajor, fits, n, rfl, by simp [encodeHeader]⟩
  · rintro ⟨hmajor, fits, n, rfl, rfl⟩
    refine ⟨signature, signature, _, ⟨rfl, rfl⟩, ⟨rfl, _, _, ⟨hmajor, _, _, ⟨_, _, ⟨_, _, ⟨_, _,
      ⟨n, [], ⟨fits, rfl, rfl⟩, rfl⟩, rfl⟩, rfl⟩, rfl⟩, rfl⟩, rfl⟩, ?_⟩
    simp [encodeHeader]

/-! ## Maps -/

variable {m : FlashMap} {bs image : Bytes} {position : Nat}

theorem encode_eq_ok : m.encode = .ok bs ↔ ∃ count : UInt16, count.toNat = m.areas.length ∧
    encodeHeader m.toFlashHeader count ++ m.areas.flatMap FlashArea.encode = bs := by
  unfold encode
  constructor
  · intro h
    split_ifs at h with counted
    cases h
    exact ⟨_, UInt16.toNat_ofNat_of_lt' counted, rfl⟩
  · rintro ⟨count, hcount, rfl⟩
    rw [if_pos (hcount ▸ count.toNat_lt), ← hcount, UInt16.ofNat_toNat]

theorem length_encode (h : m.encode = .ok bs) : bs.length = encodedSize m.areas.length := by
  obtain ⟨count, -, rfl⟩ := encode_eq_ok.1 h
  rw [List.length_append, length_encodeHeader, FlashArea.length_encodeAll]
  rfl

/-- A map is read just where its encoding stands, if there is room for it. -/
theorem exact_read (available position : Nat) : Read.Exact (read available position) fun _ m bs =>
    m.position = position ∧ m.majorVersion = currentMajor ∧
      encodedSize m.areas.length ≤ available ∧ m.encode = .ok bs := by
  refine ((exact_readHeader available).bind fun h => (FlashArea.exact_readAll h.2).bind fun areas =>
    Read.exact_pure (FlashMap.mk h.1 position areas)).congr ?_
  intro pos m bs
  rw [encode_eq_ok]
  constructor
  · rintro ⟨⟨header, n⟩, _, _, ⟨hmajor, fits, count, rfl, rfl⟩, ⟨areas, _, _, ⟨hlength, rfl⟩,
      ⟨rfl, rfl⟩, rfl⟩, rfl⟩
    exact ⟨rfl, hmajor, hlength ▸ fits, count, hlength.symm, by simp⟩
  · rintro ⟨rfl, hmajor, fits, count, hcount, rfl⟩
    exact ⟨(m.toFlashHeader, count.toNat), _, _, ⟨hmajor, hcount ▸ fits, count, rfl, rfl⟩,
      ⟨m.areas, _, [], ⟨hcount.symm, rfl⟩, ⟨rfl, rfl⟩, rfl⟩, by simp⟩

theorem encode_ne_nil (h : m.encode = .ok bs) : bs ≠ [] := by
  rintro rfl
  have length := length_encode h
  rw [List.length_nil, encodedSize, headerSize] at length
  omega

/-- A map has an encoding just if the number of its areas fits into a word of 16 bits. -/
theorem exists_encode_iff : (∃ bs, m.encode = .ok bs) ↔ m.areas.length ≤ 65535 := by
  unfold encode
  have bound : m.areas.length < word16Bound ↔ m.areas.length ≤ 65535 := Nat.lt_succ_iff
  rw [← bound]
  split_ifs with counted
  · exact iff_of_true ⟨_, rfl⟩ counted
  · exact iff_of_false nofun counted

/-- The place of a map in its image is not encoded. -/
theorem encode_at (m : FlashMap) (position : Nat) : ({ m with position } : FlashMap).encode = m.encode :=
  rfl

@[simp] theorem areas_build (name : String) (base : UInt64) (size : UInt32)
    (areas : List FlashArea) : (build name base size areas).areas = areas :=
  rfl

/-- A map is read at an offset just if its encoding stands there. -/
theorem parseAt_eq_ok_iff : parseAt image position = .ok m ↔
    m.position = position ∧ m.majorVersion = currentMajor ∧
      ∃ bs, m.encode = .ok bs ∧ image.slice position bs.length = some bs := by
  unfold parseAt
  split_ifs with outside
  · refine iff_of_false nofun ?_
    rintro ⟨-, -, bs, -, there⟩
    have inside := (Bytes.slice_eq_some.1 there).1
    omega
  · rw [(exact_read _ _).parseFrom_ok]
    constructor
    · rintro ⟨bs, ⟨hpos, hmajor, -, encoded⟩, stands⟩
      exact ⟨hpos, hmajor, bs, encoded, (Bytes.slice_eq_some_iff_prefix (encode_ne_nil encoded)).2 stands⟩
    · rintro ⟨hpos, hmajor, bs, encoded, there⟩
      have inside := (Bytes.slice_eq_some.1 there).1
      refine ⟨bs, ⟨hpos, hmajor, ?_, encoded⟩,
        (Bytes.slice_eq_some_iff_prefix (encode_ne_nil encoded)).1 there⟩
      rw [← length_encode encoded]
      omega

/-- The bytes from the offset of a map on begin with its encoding. -/
theorem parseAt_eq_ok_iff_stands : parseAt image position = .ok m ↔
    m.position = position ∧ m.majorVersion = currentMajor ∧
      ∃ bs, m.encode = .ok bs ∧ bs <+: image.drop position := by
  rw [parseAt_eq_ok_iff]
  refine and_congr_right fun _ => and_congr_right fun _ => exists_congr fun bs =>
    and_congr_right fun encoded => ?_
  exact Bytes.slice_eq_some_iff_prefix (encode_ne_nil encoded)

/-- A map is read from the start of an image just if it is read from all of it and ends in that
start. -/
theorem parseAt_take_eq_ok_iff {n : Nat} : parseAt (image.take n) position = .ok m ↔
    parseAt image position = .ok m ∧ position + encodedSize m.areas.length ≤ n := by
  rw [parseAt_eq_ok_iff_stands, parseAt_eq_ok_iff_stands, List.drop_take]
  constructor
  · rintro ⟨hpos, hmajor, bs, encoded, stands⟩
    obtain ⟨stands, fits⟩ := List.prefix_take_iff.1 stands
    have positive := List.length_pos_iff.2 (encode_ne_nil encoded)
    rw [← length_encode encoded]
    exact ⟨⟨hpos, hmajor, bs, encoded, stands⟩, by omega⟩
  · rintro ⟨⟨hpos, hmajor, bs, encoded, stands⟩, fits⟩
    rw [← length_encode encoded] at fits
    exact ⟨hpos, hmajor, bs, encoded, List.prefix_take_iff.2 ⟨stands, by omega⟩⟩

/-- There is a map to read at an offset just if there is a header, and room for as many areas as it
says. -/
theorem exists_parseAt_iff : (∃ m, parseAt image position = .ok m) ↔
    ∃ (header : FlashHeader) (count : UInt16), header.majorVersion = currentMajor ∧
      image.slice position headerSize = some (encodeHeader header count) ∧
      position + encodedSize count.toNat ≤ image.length := by
  constructor
  · rintro ⟨m, h⟩
    obtain ⟨-, hmajor, bs, encoded, there⟩ := parseAt_eq_ok_iff.1 h
    have length := length_encode encoded
    have inside := (Bytes.slice_eq_some.1 there).1
    obtain ⟨count, hcount, rfl⟩ := encode_eq_ok.1 encoded
    have header := Bytes.slice_take there (n := headerSize) (by rw [length]; exact Nat.le_add_right _ _)
    rw [← length_encodeHeader m.toFlashHeader count, List.take_left] at header
    rw [length_encodeHeader] at header
    refine ⟨m.toFlashHeader, count, hmajor, header, ?_⟩
    rw [hcount, ← length]
    exact inside
  · -- what follows the header are areas, whatever it is
    rintro ⟨header, count, hmajor, there, room⟩
    unfold encodedSize at room
    have left : ((image.drop (position + headerSize)).take (count.toNat * FlashArea.byteLength)).length
        = count.toNat * FlashArea.byteLength := by
      rw [List.length_take, List.length_drop]
      omega
    obtain ⟨areas, hlength, hareas⟩ := FlashArea.exists_encodeAll left
    have encoded : (FlashMap.mk header position areas).encode
        = .ok (encodeHeader header count ++ areas.flatMap FlashArea.encode) :=
      encode_eq_ok.2 ⟨count, hlength.symm, rfl⟩
    refine ⟨⟨header, position, areas⟩, parseAt_eq_ok_iff.2 ⟨rfl, hmajor, _, encoded, ?_⟩⟩
    have size := length_encode encoded
    rw [size, Bytes.slice_eq_some, hareas, hlength, encodedSize]
    refine ⟨room, ?_⟩
    rw [List.take_add, (Bytes.slice_eq_some.1 there).2, List.drop_drop]

/-! ## Reading what was written -/

/-- Reading and encoding are inverse to each other. A map is read at an offset if and only if it has
that offset, the current version and few enough areas to be counted, and its encoding stands there;
so a map that is read is encoded as the bytes it was read from. If the image is cut off before the
end of the map, no map is read there, and otherwise this one. A map that was built has an encoding if
its areas can be counted, and is read back from it between any other bytes. -/
theorem read_exactly_where_encoded (image : Bytes) (position : Nat) (m : FlashMap) :
    (parseAt image position = .ok m ↔ m.position = position ∧ m.majorVersion = 1 ∧
      m.areas.length ≤ 65535 ∧ ∃ bs, m.encode = .ok bs ∧ bs <+: image.drop position) ∧
    (parseAt image position = .ok m →
      m.encode = .ok ((image.drop position).take (encodedSize m.areas.length)) ∧
      position + encodedSize m.areas.length ≤ image.length ∧
      (∀ n < position + encodedSize m.areas.length,
        ∃ e, parseAt (image.take n) position = .error e) ∧
      ∀ n, position + encodedSize m.areas.length ≤ n →
        parseAt (image.take n) position = .ok m) ∧
    ∀ name base size areas,
      ((∃ bs, (build name base size areas).encode = .ok bs) ↔ areas.length ≤ 65535) ∧
      ∀ bs, (build name base size areas).encode = .ok bs →
        bs.length = encodedSize areas.length ∧ ∀ before after : Bytes,
          parseAt (before ++ bs ++ after) before.length
            = .ok { build name base size areas with position := before.length } := by
  refine ⟨?_, fun h => ?_, fun name base size areas => ⟨exists_encode_iff, fun bs encoded => ?_⟩⟩
  · rw [parseAt_eq_ok_iff_stands]
    refine and_congr_right fun _ => and_congr_right fun _ => iff_and_self.2 ?_
    rintro ⟨bs, encoded, -⟩
    exact exists_encode_iff.1 ⟨bs, encoded⟩
  · obtain ⟨-, -, bs, encoded, there⟩ := parseAt_eq_ok_iff.1 h
    rw [length_encode encoded] at there
    obtain ⟨inside, bytes⟩ := Bytes.slice_eq_some.1 there
    refine ⟨bytes ▸ encoded, inside, fun n short => ?_, fun n le =>
      parseAt_take_eq_ok_iff.2 ⟨h, le⟩⟩
    -- what could be read there would be the same map, and would not have been cut off
    cases cut : parseAt (image.take n) position with
    | error e => exact ⟨e, rfl⟩
    | ok other =>
      obtain ⟨whole, fits⟩ := parseAt_take_eq_ok_iff.1 cut
      obtain rfl := Except.ok.inj (whole.symm.trans h)
      omega
  · refine ⟨(length_encode encoded).trans (by rw [areas_build]), fun before after => ?_⟩
    refine parseAt_eq_ok_iff_stands.2 ⟨rfl, rfl, bs, (encode_at _ _).trans encoded, ?_⟩
    rw [List.append_assoc, List.drop_left]
    exact List.prefix_append bs after

/-- A map of two areas stands behind two other bytes and before one. -/
theorem two_areas_read_exactly : ∃ bs : Bytes,
    let built := build "FLASH" 0 0x1000 [.named "GBB" 0x100 0x100, .named "FW_MAIN_A" 0x200 0x200]
    let image := [1, 2] ++ bs ++ [3]
    built.encode = .ok bs ∧ bs.length = 140 ∧
      parseAt image 2 = .ok { built with position := 2 } ∧
      bs = (image.drop 2).take 140 ∧ (∃ e, parseAt (image.take 141) 2 = .error e) ∧
      parseAt (image.take 142) 2 = .ok { built with position := 2 } := by
  obtain ⟨bs, encoded⟩ : ∃ bs, (build "FLASH" 0 0x1000
      [.named "GBB" 0x100 0x100, .named "FW_MAIN_A" 0x200 0x200]).encode = .ok bs := ⟨_, rfl⟩
  obtain ⟨-, -, built⟩ := read_exactly_where_encoded [] 0 (build "" 0 0 [])
  obtain ⟨length, read⟩ := (built _ _ _ _).2 bs encoded
  have there := read [1, 2] [3]
  obtain ⟨-, exact, -⟩ := read_exactly_where_encoded ([1, 2] ++ bs ++ [3]) 2 _
  obtain ⟨again, -, cut, whole⟩ := exact there
  rw [encode_at, encoded] at again
  exact ⟨bs, encoded, length, there, Except.ok.inj again, cut 141 (by decide), whole 142 (by decide)⟩

end FlashMap
end VerifiedBoot
