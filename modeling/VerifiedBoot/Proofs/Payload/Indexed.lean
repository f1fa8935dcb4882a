/-
What an indexed body is made of. A header is read just where its bytes stand, chunks put together
are the string that was cut, and a body matches its index just if the index has the digest of each
block of the content, of as many blocks as the content has.
-/
import VerifiedBoot.Payload
import VerifiedBoot.Proofs.Codec.Record

namespace VerifiedBoot

/-! ## Chunks -/

namespace Bytes
variable {n count : Nat} {bs : Bytes}

/-- What is left after a chunk is within one less than the bound. -/
theorem length_drop_le {b : UInt8} (hn : 0 < n) (h : (b :: bs).length ≤ count + 1) :
    ((b :: bs).drop n).length ≤ count := by
  rw [List.length_drop]
  omega

theorem flatten_chunksUpTo (hn : 0 < n) (h : bs.length ≤ count) :
    (chunksUpTo n count bs).flatten = bs := by
  induction count generalizing bs with
  | zero =>
    rw [List.eq_nil_of_length_eq_zero (Nat.le_zero.1 h)]
    rfl
  | succ count ih =>
    cases bs with
    | nil => rfl
    | cons b bs => rw [chunksUpTo, List.flatten_cons, ih (length_drop_le hn h), List.take_append_drop]

theorem length_chunksUpTo (hn : 0 < n) (h : bs.length ≤ count) :
    (chunksUpTo n count bs).length = (bs.length + (n - 1)) / n := by
  have empty : (([] : Bytes).length + (n - 1)) / n = 0 :=
    Nat.div_eq_of_lt (by simp only [List.length_nil]; omega)
  induction count generalizing bs with
  | zero =>
    rw [List.eq_nil_of_length_eq_zero (Nat.le_zero.1 h)]
    exact empty.symm
  | succ count ih =>
    cases bs with
    | nil => exact empty.symm
    | cons b bs =>
      rw [chunksUpTo, List.length_cons, ih (length_drop_le hn h), List.length_drop]
      simp only [List.length_cons]
      -- the first chunk is whole, or the only one
      rcases le_or_gt n (bs.length + 1) with whole | short
      · have more : bs.length + 1 + (n - 1) = (bs.length + 1 - n + (n - 1)) + n := by omega
        rw [more, Nat.add_div_right _ hn]
      · have only : bs.length + 1 + (n - 1) = bs.length + n := by omega
        have none : bs.length + 1 - n + (n - 1) < n := by omega
        have fits : bs.length < n := by omega
        rw [only, Nat.add_div_right _ hn, Nat.div_eq_of_lt none, Nat.div_eq_of_lt fits]

theorem flatten_chunks (hn : 0 < n) (bs : Bytes) : (chunks n bs).flatten = bs :=
  flatten_chunksUpTo hn le_rfl

/-- A string has as many chunks as its length needs, the last one counted even if it is short. -/
theorem length_chunks (hn : 0 < n) (bs : Bytes) :
    (chunks n bs).length = (bs.length + (n - 1)) / n :=
  length_chunksUpTo hn le_rfl

end Bytes

/-! ## Headers -/

namespace IndexedHeader

theorem length_encode (h : IndexedHeader) : h.encode.length = headerSize := by
  simp only [encode, List.length_append, Bytes.length_le32]
  rfl

theorem exact_read : Read.Exact read fun _ h bs => bs = h.encode := by
  refine ((Read.exact_fixed 4).bind fun start => Read.Exact.require <|
    Read.exact_word32.word fun flags => Read.exact_word32.word fun metadataSize =>
    Read.exact_word32.word fun contentSize =>
      Read.exact_pure (IndexedHeader.mk flags metadataSize contentSize)).congr ?_
  intro pos h bs
  constructor
  · rintro ⟨_, _, _, ⟨rfl, -⟩, ⟨rfl, _, _, ⟨_, _, ⟨_, _, ⟨rfl, rfl⟩, rfl⟩, rfl⟩, rfl⟩, rfl⟩
    simp [encode]
  · rintro rfl
    exact ⟨_, _, _, ⟨rfl, rfl⟩, ⟨rfl, _, _, ⟨_, _, ⟨_, _, ⟨rfl, rfl⟩, rfl⟩, rfl⟩, rfl⟩, by
      simp [encode]⟩

theorem encode_append_inj {h h' : IndexedHeader} {t t' : Bytes}
    (ht : h.encode ++ t = h'.encode ++ t') : h = h' ∧ t = t' :=
  have ⟨hh, _, ht⟩ := exact_read.unique 0 rfl rfl ht
  ⟨hh, ht⟩

theorem parse_eq_ok {body : Bytes} {h : IndexedHeader} :
    parse body = .ok h ↔ h.encode <+: body ∧ h.metadataEnd ≤ h.contentSize.toNat ∧
      h.contentSize.toNat ≤ body.length := by
  simp only [parse, bind_eq_ok, refuse_eq_ok, pure_eq_ok, not_lt, exact_read.parse_ok]
  constructor
  · rintro ⟨_, ⟨_, rfl, hp⟩, hm, hc, rfl⟩
    exact ⟨hp, hm, hc⟩
  · rintro ⟨hp, hm, hc⟩
    exact ⟨_, ⟨_, rfl, hp⟩, hm, hc, rfl⟩

end IndexedHeader

/-! ## Bodies -/

namespace IndexedPayload

theorem integrityHeader?_eq_some {body : Bytes} {h : IndexedHeader} :
    integrityHeader? body = some h ↔ h.encode <+: body ∧ h.metadataEnd ≤ h.contentSize.toNat ∧
      h.contentSize.toNat ≤ body.length ∧ h.declaresIntegrity = true := by
  have read : header? body = some h ↔ IndexedHeader.parse body = .ok h := toOption_eq_some
  unfold integrityHeader?
  rw [Option.filter_eq_some_iff, read, IndexedHeader.parse_eq_ok, and_assoc, and_assoc]

/-- The index in a body with a header. -/
def indexIn (body : Bytes) (h : IndexedHeader) : Bytes :=
  body.between IndexedHeader.headerSize h.metadataEnd

theorem indexIn_eq_drop (body : Bytes) (h : IndexedHeader) :
    indexIn body h = (body.take h.metadataEnd).drop IndexedHeader.headerSize :=
  List.drop_take.symm

/-- The blocks of the content of a body with a header. -/
def blocksIn (body : Bytes) (h : IndexedHeader) : List Bytes :=
  Bytes.chunks blockSize (body.drop h.metadataEnd)

theorem flatten_blocksIn (body : Bytes) (h : IndexedHeader) :
    (blocksIn body h).flatten = body.drop h.metadataEnd :=
  Bytes.flatten_chunks (by decide) _

theorem describesAll_iff {index content : Bytes} :
    describesAll index content = true ↔
      index.length = (Bytes.chunks blockSize content).length * entrySize := by
  unfold describesAll
  rw [beq_iff_eq, Bytes.length_chunks (by decide)]

/-- Where there are as many entries as blocks, all blocks match just if the entries are the digests
of the blocks. -/
theorem blocksMatch_iff {index content : Bytes} {primitives : TrustPrimitives}
    (h : (Bytes.chunks blockSize content).length = (Bytes.chunks entrySize index).length) :
    blocksMatch index content primitives = true ↔
      (Bytes.chunks blockSize content).map (primitives.digest .sha256)
        = (Bytes.chunks entrySize index).map .ok := by
  unfold blocksMatch
  generalize Bytes.chunks blockSize content = blocks at h ⊢
  generalize Bytes.chunks entrySize index = entries at h ⊢
  induction blocks generalizing entries with
  | nil =>
    rw [List.eq_nil_of_length_eq_zero h.symm]
    simp
  | cons block blocks ih =>
    cases entries with
    | nil => cases h
    | cons entry entries =>
      simp only [List.zip_cons_cons, List.all_cons, Bool.and_eq_true, List.map_cons, List.cons.injEq]
      rw [ih entries (Nat.succ.inj h)]
      cases primitives.digest .sha256 block <;> simp

/-- A body matches its index just if the content ends where the body ends and the index is the
digests of all blocks of the content, one after another. -/
theorem contentMatches_iff {body : Bytes} {primitives : TrustPrimitives} :
    contentMatches body primitives = true ↔ ∃ h, integrityHeader? body = some h ∧
      h.contentSize.toNat = body.length ∧
      (indexIn body h).length = (blocksIn body h).length * entrySize ∧
      (blocksIn body h).map (primitives.digest .sha256)
        = (Bytes.chunks entrySize (indexIn body h)).map .ok := by
  unfold contentMatches
  cases integrityHeader? body with
  | none => simp
  | some h =>
    simp only [Bool.and_eq_true, beq_iff_eq, Option.some.injEq, exists_eq_left', and_assoc,
      describesAll_iff]
    refine and_congr_right fun _ => and_congr_right fun all => ?_
    refine blocksMatch_iff ?_
    -- as many whole entries as there are blocks
    rw [Bytes.length_chunks (by decide) (Bytes.between _ _ _), all]
    unfold entrySize
    omega

end IndexedPayload
end VerifiedBoot
