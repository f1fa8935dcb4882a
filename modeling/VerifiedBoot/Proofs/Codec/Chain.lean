/-
The codec of trust chains is exact in both directions: an area is read as a chain if and only if
the chain is canonical and the area begins with its encoding, so that what signatures are checked
over is what stands in the area. Writing a canonical chain succeeds just if it fits, reads back, and
leaves the bytes after it; writing that fails leaves the whole area.
-/
import VerifiedBoot.Chain.TrustChain
import VerifiedBoot.Proofs.Codec.Keyblock
import VerifiedBoot.Proofs.Codec.Preamble

namespace VerifiedBoot

theorem Bytes.overwrite_zero (bs new : Bytes) :
    bs.overwrite 0 new = new ++ bs.drop new.length := by
  simp [Bytes.overwrite]

namespace TrustChain

/-- A chain of a canonical keyblock and a canonical preamble. -/
structure Canonical (c : TrustChain) : Prop where
  keyblock : c.keyblock.Canonical
  preamble : c.preamble.Canonical

/-! ## Encodings -/

theorem encode_eq_ok {c : TrustChain} {capacity : Nat} {bs : Bytes} :
    c.encode capacity = .ok bs ↔ ∃ k, c.keyblock.encode = .ok k ∧
      ∃ p, c.preamble.encode = .ok p ∧ k ++ p = bs ∧ bs.length ≤ capacity := by
  simp only [encode, bind_eq_ok, refuse_eq_ok, pure_eq_ok, not_lt]
  constructor
  · rintro ⟨k, hk, p, hp, hle, rfl⟩
    exact ⟨k, hk, p, hp, rfl, hle⟩
  · rintro ⟨k, hk, p, hp, rfl, hle⟩
    exact ⟨k, hk, p, hp, hle, rfl⟩

theorem length_encode {c : TrustChain} {capacity : Nat} {bs : Bytes}
    (h : c.encode capacity = .ok bs) : bs.length = c.byteLength := by
  obtain ⟨k, hk, p, hp, rfl, -⟩ := encode_eq_ok.1 h
  rw [List.length_append, Keyblock.length_encode hk, Preamble.length_encode hp]
  rfl

/-- A canonical chain has an encoding, which needs exactly the room that its fields say. -/
theorem Canonical.encode_ok_iff {c : TrustChain} (h : c.Canonical) {capacity : Nat} :
    (∃ bs, c.encode capacity = .ok bs) ↔ c.byteLength ≤ capacity := by
  constructor
  · rintro ⟨bs, hbs⟩
    rw [← length_encode hbs]
    obtain ⟨-, -, -, -, -, hle⟩ := encode_eq_ok.1 hbs
    exact hle
  · intro hle
    obtain ⟨k, hk⟩ := Keyblock.encode_ok h.keyblock.size
    obtain ⟨p, hp⟩ := Preamble.encode_ok h.preamble.size
    refine ⟨k ++ p, encode_eq_ok.2 ⟨k, hk, p, hp, rfl, ?_⟩⟩
    rw [List.length_append, Keyblock.length_encode hk, Preamble.length_encode hp]
    exact hle

/-- Where a chain has an encoding, it has the same one in any room that is large enough. -/
theorem encode_eq_ok_iff_of_ok {c : TrustChain} {capacity capacity' : Nat} {bs bs' : Bytes}
    (h : c.encode capacity = .ok bs) :
    c.encode capacity' = .ok bs' ↔ bs' = bs ∧ bs.length ≤ capacity' := by
  obtain ⟨k, hk, p, hp, rfl, -⟩ := encode_eq_ok.1 h
  constructor
  · intro h'
    obtain ⟨k', hk', p', hp', rfl, hle⟩ := encode_eq_ok.1 h'
    obtain rfl := Except.ok.inj (hk.symm.trans hk')
    obtain rfl := Except.ok.inj (hp.symm.trans hp')
    exact ⟨rfl, hle⟩
  · rintro ⟨rfl, hle⟩
    exact encode_eq_ok.2 ⟨k, hk, p, hp, rfl, hle⟩

/-! ## Reading -/

theorem parse_eq_ok {c : TrustChain} {area : Bytes} :
    parse area = .ok c ↔ Keyblock.parse area = .ok c.keyblock ∧
      Preamble.parse area c.keyblock.size.toNat = .ok c.preamble := by
  simp only [parse, bind_eq_ok, pure_eq_ok]
  constructor
  · rintro ⟨k, hk, p, hp, rfl⟩
    exact ⟨hk, hp⟩
  · rintro ⟨hk, hp⟩
    exact ⟨_, hk, _, hp, rfl⟩

/-- A chain is read just if it is canonical and its encoding stands at the start. -/
theorem parse_eq_ok_iff {c : TrustChain} {area : Bytes} :
    parse area = .ok c ↔ c.Canonical ∧ ∃ bs, c.encode area.length = .ok bs ∧ bs <+: area := by
  rw [parse_eq_ok, Keyblock.parse_eq_ok_iff, Preamble.parse_eq_ok_iff]
  constructor
  · rintro ⟨⟨hk, e, he, hp⟩, -, hq, e', he', hp'⟩
    rw [hk.size, ← Keyblock.length_encode he] at hp'
    have whole := append_prefix_iff.2 ⟨hp, hp'⟩
    exact ⟨⟨hk, hq⟩, e ++ e', encode_eq_ok.2 ⟨e, he, e', he', rfl, whole.length_le⟩, whole⟩
  · rintro ⟨⟨hk, hq⟩, bs, hbs, hp⟩
    obtain ⟨e, he, e', he', rfl, -⟩ := encode_eq_ok.1 hbs
    obtain ⟨hp, hp'⟩ := append_prefix_iff.1 hp
    rw [Keyblock.length_encode he, ← hk.size] at hp'
    refine ⟨⟨hk, e, he, hp⟩, ?_, hq, e', he', hp'⟩
    have := c.keyblock.size.toNat_lt
    unfold Preamble.minSize Preamble.headerSize Signature.headerSize sizeBound
    omega

theorem byteLength_le_of_parse {c : TrustChain} {area : Bytes} (h : parse area = .ok c) :
    c.byteLength ≤ area.length := by
  obtain ⟨canonical, bs, hbs, -⟩ := parse_eq_ok_iff.1 h
  exact canonical.encode_ok_iff.1 ⟨bs, hbs⟩

theorem encode_of_parse {c : TrustChain} {area : Bytes} (h : parse area = .ok c) :
    c.encode area.length = .ok (area.take c.byteLength) := by
  obtain ⟨-, bs, hbs, hp⟩ := parse_eq_ok_iff.1 h
  rw [take_eq_of_isPrefix hp (length_encode hbs), hbs]

/-- Another area holds the same chain just if it begins with the bytes of that chain. -/
theorem parse_eq_ok_iff_of_parse {c : TrustChain} {area area' : Bytes} (h : parse area = .ok c) :
    parse area' = .ok c ↔ area.take c.byteLength <+: area' := by
  have canonical : c.Canonical := (parse_eq_ok_iff.1 h).1
  rw [parse_eq_ok_iff]
  simp only [encode_eq_ok_iff_of_ok (encode_of_parse h)]
  constructor
  · rintro ⟨-, _, ⟨rfl, -⟩, hp⟩
    exact hp
  · intro hp
    exact ⟨canonical, _, ⟨rfl, hp.length_le⟩, hp⟩

/-- The bytes that the signature of a keyblock is checked over stand at its start. -/
theorem signedBytes_prefix_of_keyblock {k : Keyblock} {area : Bytes}
    (h : Keyblock.parse area = .ok k) :
    ∃ signed, k.signedBytes = .ok signed ∧ signed <+: area.take k.size.toNat := by
  obtain ⟨hk, e, he, hp⟩ := Keyblock.parse_eq_ok_iff.1 h
  rw [take_eq_of_isPrefix hp ((Keyblock.length_encode he).trans hk.size.symm)]
  obtain ⟨-, signed, hs, blob, -, rfl⟩ := Keyblock.encode_eq_ok.1 he
  exact ⟨signed, hs, List.prefix_append signed blob⟩

/-- The bytes that the signature of a preamble is checked over stand at its start. -/
theorem signedBytes_prefix_of_preamble {p : Preamble} {area : Bytes} {offset : Nat}
    (h : Preamble.parse area offset = .ok p) :
    ∃ signed, p.signedBytes = .ok signed ∧ signed <+: (area.drop offset).take p.size.toNat := by
  obtain ⟨-, hq, e, he, hp⟩ := Preamble.parse_eq_ok_iff.1 h
  rw [take_eq_of_isPrefix hp ((Preamble.length_encode he).trans hq.size.symm)]
  obtain ⟨-, signed, hs, blob, -, rfl⟩ := Preamble.encode_eq_ok.1 he
  exact ⟨signed, hs, List.prefix_append signed blob⟩

/-! ## Writing -/

theorem writeTo_run (c : TrustChain) (area : Bytes) :
    c.writeTo area = match c.encode area.length with
      | .ok bs => .ok () (bs ++ area.drop bs.length)
      | .error e => .error e area := by
  have opened : c.writeTo area = EStateM.run (match c.encode area.length with
      | .ok bs => set (area.overwrite 0 bs)
      | .error e => throw e : EStateM CodecError Bytes Unit) area := rfl
  rw [opened]
  cases c.encode area.length with
  | ok bs =>
    show EStateM.Result.ok () (area.overwrite 0 bs) = .ok () (bs ++ area.drop bs.length)
    rw [Bytes.overwrite_zero]
  | error e => rfl

theorem writeTo_eq_ok {c : TrustChain} {area area' : Bytes} :
    c.writeTo area = .ok () area' ↔
      ∃ bs, c.encode area.length = .ok bs ∧ bs ++ area.drop bs.length = area' := by
  rw [writeTo_run]
  cases c.encode area.length <;> simp

theorem writeTo_eq_error {c : TrustChain} {area area' : Bytes} {e : CodecError} :
    c.writeTo area = .error e area' ↔ c.encode area.length = .error e ∧ area = area' := by
  rw [writeTo_run]
  cases c.encode area.length <;> simp

/-! ## Both directions -/

/-- Reading and writing of chains are exact inverses on every area. -/
theorem parse_iff_canonical_and_writeTo_exact (c : TrustChain) (area : Bytes) :
    (parse area = .ok c ↔
      c.Canonical ∧ ∃ bs, c.encode area.length = .ok bs ∧ bs <+: area) ∧
    (parse area = .ok c →
      (∃ signed, c.keyblock.signedBytes = .ok signed ∧
        signed <+: area.take c.keyblock.size.toNat) ∧
      ∃ signed, c.preamble.signedBytes = .ok signed ∧
        signed <+: (area.drop c.keyblock.size.toNat).take c.preamble.size.toNat) ∧
    (c.Canonical →
      ((∃ area', c.writeTo area = .ok () area') ↔ c.byteLength ≤ area.length) ∧
      ∀ area', c.writeTo area = .ok () area' →
        parse area' = .ok c ∧ area'.length = area.length ∧
          area'.drop c.byteLength = area.drop c.byteLength) ∧
    ∀ e area', c.writeTo area = .error e area' → area' = area := by
  refine ⟨parse_eq_ok_iff, ?_, ?_, ?_⟩
  · intro h
    obtain ⟨hk, hp⟩ := parse_eq_ok.1 h
    exact ⟨signedBytes_prefix_of_keyblock hk, signedBytes_prefix_of_preamble hp⟩
  · intro hc
    constructor
    · rw [← hc.encode_ok_iff]
      constructor
      · rintro ⟨area', h⟩
        obtain ⟨bs, hbs, -⟩ := writeTo_eq_ok.1 h
        exact ⟨bs, hbs⟩
      · rintro ⟨bs, hbs⟩
        exact ⟨_, writeTo_eq_ok.2 ⟨bs, hbs, rfl⟩⟩
    · intro area' h
      obtain ⟨bs, hbs, rfl⟩ := writeTo_eq_ok.1 h
      have hlen := length_encode hbs
      have hle : c.byteLength ≤ area.length := hc.encode_ok_iff.1 ⟨bs, hbs⟩
      have same : (bs ++ area.drop bs.length).length = area.length := by
        rw [List.length_append, List.length_drop]
        omega
      refine ⟨parse_eq_ok_iff.2 ⟨hc, bs, ?_, List.prefix_append bs _⟩, same, ?_⟩
      · rw [same]
        exact hbs
      · rw [← hlen, List.drop_left]
  · intro e area' h
    exact (writeTo_eq_error.1 h).2.symm

/-- A chain of short keys and blobs, with a subkey. -/
def sample : TrustChain where
  keyblock := {
    headerVersion := 1
    size := 79
    flags := KeyblockFlags.all
    dataKey := ⟨1, 5, [7]⟩
    checksum := sha256 (Keyblock.headerBytes 79 KeyblockFlags.all
      ++ [1, 0, 0, 0, 5, 0, 0, 0, 1, 0, 0, 0, 7])
    signature := ⟨.classical, 1, 65, [1]⟩ }
  preamble := {
    size := 59
    headerVersion := 1
    version := 6
    flags := 9
    bodySignature := ⟨.classical, 1, 4, [3]⟩
    subkey := some ⟨1, 2, [8, 8]⟩
    signature := ⟨.classical, 1, 45, [2]⟩ }

/-- The key that signs the keyblock of the sample chain. -/
def sampleRoot : PackedKey := ⟨1, 1, [9]⟩

theorem canonical_sample : sample.Canonical :=
  ⟨⟨rfl, rfl, _, rfl, rfl⟩, ⟨rfl, rfl⟩⟩

/-- The encoding of the sample chain. -/
def sampleBytes : Bytes := (sample.encode 138).toOption.getD []

theorem encode_sample : sample.encode 138 = .ok sampleBytes := by
  obtain ⟨bs, h⟩ := canonical_sample.encode_ok_iff.2 (by decide : sample.byteLength ≤ 138)
  rw [sampleBytes, h]
  rfl

theorem parse_sampleBytes_append (rest : Bytes) : parse (sampleBytes ++ rest) = .ok sample := by
  have hp : sampleBytes <+: sampleBytes ++ rest := List.prefix_append _ rest
  exact parse_eq_ok_iff.2 ⟨canonical_sample, sampleBytes,
    (encode_eq_ok_iff_of_ok encode_sample).2 ⟨rfl, hp.length_le⟩, hp⟩

theorem sample_written_and_read_back :
    sample.Canonical ∧ sample.byteLength ≤ (List.replicate 140 (0xee : UInt8)).length ∧
    ∃ area', sample.writeTo (List.replicate 140 0xee) = .ok () area' ∧
      parse area' = .ok sample ∧ area'.length = 140 ∧ area'.drop 138 = [0xee, 0xee] := by
  have hle : sample.byteLength ≤ (List.replicate 140 (0xee : UInt8)).length := by
    rw [List.length_replicate]
    decide
  obtain ⟨-, -, written, -⟩ :=
    parse_iff_canonical_and_writeTo_exact sample (List.replicate 140 0xee)
  obtain ⟨fits, back⟩ := written canonical_sample
  obtain ⟨area', h⟩ := fits.2 hle
  obtain ⟨read, same, rest⟩ := back area' h
  refine ⟨canonical_sample, hle, area', h, read, by simpa using same, ?_⟩
  rw [show 138 = sample.byteLength by decide, rest]
  decide

end TrustChain
end VerifiedBoot
