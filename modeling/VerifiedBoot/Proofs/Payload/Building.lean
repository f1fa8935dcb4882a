/-
Indexed bodies are accepted exactly as they are built. A body that was built tells its own length
whatever follows it, and with the software primitives its content matches if it is all there is. The
check leaves no freedom: a body that passes is the one that is built of its content under its flags,
since header, index and content of a body with an index for each block are given by the content.
-/
import VerifiedBoot.Proofs.Payload.Indexed

namespace VerifiedBoot

/-! ## Chunks of one size -/

namespace Bytes

theorem chunksUpTo_flatten {n count : Nat} {parts : List Bytes} (hn : 0 < n)
    (size : ∀ part ∈ parts, part.length = n) (h : parts.flatten.length ≤ count) :
    chunksUpTo n count parts.flatten = parts := by
  induction parts generalizing count with
  | nil => cases count <;> rfl
  | cons part parts ih =>
    have first : part.length = n := size part List.mem_cons_self
    rw [List.flatten_cons, List.length_append] at h
    obtain ⟨b, rest, hpart⟩ := List.exists_cons_of_length_pos (hn.trans_eq first.symm)
    obtain ⟨count, rfl⟩ := Nat.exists_eq_add_of_lt (show 0 < count by omega)
    have cut : chunksUpTo n (0 + count + 1) (part ++ parts.flatten)
        = (part ++ parts.flatten).take n :: chunksUpTo n (0 + count) ((part ++ parts.flatten).drop n) := by
      rw [hpart]
      rfl
    rw [List.flatten_cons, cut, ← first, List.take_left, List.drop_left, first,
      ih (fun part' h' => size part' (List.mem_cons_of_mem _ h')) (by omega)]

/-- Parts of one size are the chunks of what they make up. -/
theorem chunks_flatten {n : Nat} {parts : List Bytes} (hn : 0 < n)
    (size : ∀ part ∈ parts, part.length = n) : chunks n parts.flatten = parts :=
  chunksUpTo_flatten hn size le_rfl

end Bytes

namespace IndexedPayload

/-! ## Indexes -/

/-- The index of a content has as many entries as the content has blocks. -/
theorem length_indexOf (content : Bytes) :
    (indexOf content).length = 32 * ((content.length + 1023) / 1024) := by
  have entries : (Bytes.chunks blockSize content).length = (content.length + 1023) / 1024 :=
    Bytes.length_chunks (by decide) content
  rw [indexOf, List.length_flatMap, ← entries]
  simp only [ByteBlock.length_eq, List.map_const', List.sum_replicate, smul_eq_mul]
  exact Nat.mul_comm _ _

/-- With the software primitives, the entries of an index are the digests of all blocks just if it is
the index of the content. -/
theorem index_eq_indexOf_iff {index content : Bytes} :
    (index.length = (Bytes.chunks blockSize content).length * entrySize ∧
      (Bytes.chunks blockSize content).map (TrustPrimitives.software.digest .sha256)
        = (Bytes.chunks entrySize index).map .ok) ↔ index = indexOf content := by
  have software : (TrustPrimitives.software.digest .sha256 : Bytes → Except TrustError Bytes)
      = Except.ok ∘ fun block => (sha256 block).bytes := rfl
  have digests : indexOf content
      = ((Bytes.chunks blockSize content).map fun block => (sha256 block).bytes).flatten :=
    List.flatMap_def
  rw [software, ← List.map_map, List.map_inj_right fun _ _ h => Except.ok.inj h]
  constructor
  · rintro ⟨-, entries⟩
    rw [digests, entries, Bytes.flatten_chunks (by decide)]
  · rintro rfl
    have length : (indexOf content).length = (Bytes.chunks blockSize content).length * entrySize := by
      rw [length_indexOf, Bytes.length_chunks (by decide)]
      exact Nat.mul_comm _ _
    refine ⟨length, ?_⟩
    rw [digests, Bytes.chunks_flatten (by decide)]
    intro entry he
    obtain ⟨block, -, rfl⟩ := List.mem_map.1 he
    exact (sha256 block).length_eq

/-- A body passes the check with the software primitives just if it declares integrity metadata, ends
where its content ends, and has the index of that content. -/
theorem contentMatches_software_iff {body : Bytes} :
    contentMatches body .software = true ↔ ∃ h, integrityHeader? body = some h ∧
      h.contentSize.toNat = body.length ∧ indexIn body h = indexOf (body.drop h.metadataEnd) := by
  rw [contentMatches_iff]
  exact exists_congr fun h => and_congr_right fun _ => and_congr_right fun _ => index_eq_indexOf_iff

/-! ## Building -/

variable {content b : Bytes} {flags : UInt32}

/-- A header that gives the sizes of the index and of the body of a content. -/
structure Describes (h : IndexedHeader) (content : Bytes) (flags : UInt32) : Prop where
  flags : h.flags = flags
  metadataSize : h.metadataSize.toNat = (indexOf content).length
  contentSize : h.contentSize.toNat
    = IndexedHeader.headerSize + (indexOf content).length + content.length

theorem build_eq_ok : build content flags = .ok b ↔ ∃ h : IndexedHeader, Describes h content flags ∧
    h.encode ++ indexOf content ++ content = b := by
  simp only [build, bind_eq_ok, pure_eq_ok, toLength_eq_ok]
  constructor
  · rintro ⟨metadataSize, hm, contentSize, hc, rfl⟩
    exact ⟨_, ⟨rfl, hm, hc⟩, rfl⟩
  · rintro ⟨⟨_, metadataSize, contentSize⟩, ⟨rfl, hm, hc⟩, rfl⟩
    exact ⟨metadataSize, hm, contentSize, hc, rfl⟩

/-- A body is built just if a word of 32 bits can hold its size. -/
theorem exists_build_iff : (∃ b, build content flags = .ok b) ↔
    IndexedHeader.headerSize + (indexOf content).length + content.length < word32Bound := by
  simp only [build_eq_ok]
  constructor
  · rintro ⟨_, h, describes, -⟩
    rw [← describes.contentSize]
    exact h.contentSize.toNat_lt
  · intro room
    refine ⟨_, ⟨flags, .ofNat (indexOf content).length, .ofNat _⟩,
      ⟨rfl, UInt32.toNat_ofNat_of_lt' ?_, UInt32.toNat_ofNat_of_lt' room⟩, rfl⟩
    show _ < word32Bound
    omega

namespace Describes
variable {h : IndexedHeader}

theorem metadataEnd (d : Describes h content flags) :
    h.metadataEnd = IndexedHeader.headerSize + (indexOf content).length := by
  rw [IndexedHeader.metadataEnd, d.metadataSize]

theorem length_body (d : Describes h content flags) :
    (h.encode ++ indexOf content ++ content).length = h.contentSize.toNat := by
  rw [d.contentSize, List.length_append, List.length_append, h.length_encode]

/-- The header of a body is found again, whatever follows the body. -/
theorem header_append (d : Describes h content flags) (t : Bytes) :
    header? (h.encode ++ indexOf content ++ content ++ t) = some h := by
  refine toOption_eq_some.2 (IndexedHeader.parse_eq_ok.2 ⟨?_, ?_, ?_⟩)
  · simp only [List.append_assoc]
    exact List.prefix_append _ _
  · rw [d.metadataEnd, d.contentSize]
    exact Nat.le_add_right _ _
  · rw [List.length_append, d.length_body]
    exact Nat.le_add_right _ _

theorem declaresIntegrity_iff (d : Describes h content flags) :
    h.declaresIntegrity = true ↔ flags &&& 1 = 1 := by
  rw [IndexedHeader.declaresIntegrity, beq_iff_eq, d.flags]

theorem integrityHeader_append (d : Describes h content flags) (t : Bytes) :
    integrityHeader? (h.encode ++ indexOf content ++ content ++ t)
      = if flags &&& 1 = 1 then some h else none := by
  rw [integrityHeader?, d.header_append]
  by_cases declared : flags &&& 1 = 1
  · rw [if_pos declared, Option.filter_some, if_pos (d.declaresIntegrity_iff.2 declared)]
  · rw [if_neg declared, Option.filter_some, if_neg (mt d.declaresIntegrity_iff.1 declared)]

theorem contentLength_append (d : Describes h content flags) (t : Bytes) :
    PayloadFormat.indexed.contentLength (h.encode ++ indexOf content ++ content ++ t)
      = some (h.encode ++ indexOf content ++ content).length := by
  simp only [PayloadFormat.indexed, d.header_append, Option.map_some, d.length_body]

theorem integrityDeclared_append (d : Describes h content flags) (t : Bytes) :
    PayloadFormat.indexed.integrityDeclared (h.encode ++ indexOf content ++ content ++ t) = true ↔
      flags &&& 1 = 1 := by
  simp only [PayloadFormat.indexed, d.integrityHeader_append, Option.isSome_ite]

/-- The metadata of a body are its header and index. -/
theorem take_metadata (d : Describes h content flags) (t : Bytes) :
    (h.encode ++ indexOf content ++ content ++ t).take h.metadataEnd = h.encode ++ indexOf content := by
  rw [d.metadataEnd, ← h.length_encode, ← List.length_append, List.append_assoc, List.take_left]

theorem metadata_append (d : Describes h content flags) (t : Bytes) :
    PayloadFormat.indexed.metadata (h.encode ++ indexOf content ++ content ++ t)
      = if flags &&& 1 = 1 then some (h.encode ++ indexOf content) else none := by
  simp only [PayloadFormat.indexed, d.integrityHeader_append]
  split
  · rw [Option.map_some, d.take_metadata]
  · rfl

end Describes

/-! ## Building and checking -/

/-- A body that was built passes the check just if it declares integrity metadata, and nothing follows
it. -/
theorem contentMatches_append_iff {h : IndexedHeader} (d : Describes h content flags) (t : Bytes) :
    PayloadFormat.indexed.contentMatches (h.encode ++ indexOf content ++ content ++ t) .software = true ↔
      flags &&& 1 = 1 ∧ t = [] := by
  simp only [PayloadFormat.indexed, contentMatches_software_iff, d.integrityHeader_append]
  constructor
  · rintro ⟨h', found, ends, -⟩
    obtain ⟨declared, same⟩ := Option.ite_none_right_eq_some.1 found
    obtain rfl := Option.some.inj same
    rw [List.length_append, d.length_body] at ends
    exact ⟨declared, List.eq_nil_of_length_eq_zero (by omega)⟩
  · rintro ⟨declared, rfl⟩
    have metadata := d.take_metadata []
    have split := List.take_append_drop h.metadataEnd (h.encode ++ indexOf content ++ content ++ [])
    rw [metadata, List.append_nil, List.append_cancel_left_eq] at split
    refine ⟨h, if_pos declared, ?_, ?_⟩
    · rw [List.append_nil, d.length_body]
    · rw [indexIn_eq_drop, metadata, List.append_nil, split, ← h.length_encode, List.drop_left]

/-- The metadata of a body with a header are the header and the index. -/
theorem encode_append_indexIn {body : Bytes} {h : IndexedHeader} (stands : h.encode <+: body) :
    h.encode ++ indexIn body h = body.take h.metadataEnd := by
  have header : (body.take h.metadataEnd).take IndexedHeader.headerSize = h.encode := by
    have inside : IndexedHeader.headerSize ≤ h.metadataEnd := Nat.le_add_right _ _
    rw [List.take_take, Nat.min_eq_left inside]
    exact take_eq_of_isPrefix stands h.length_encode
  rw [indexIn_eq_drop, ← header, List.take_append_drop]

/-- A body that passes the check is the one that is built of its content. -/
theorem build_of_contentMatches {body : Bytes} {h : IndexedHeader}
    (found : integrityHeader? body = some h) (ends : h.contentSize.toNat = body.length)
    (index : indexIn body h = indexOf (body.drop h.metadataEnd)) :
    build (body.drop h.metadataEnd) h.flags = .ok body := by
  obtain ⟨stands, room, -, -⟩ := integrityHeader?_eq_some.1 found
  have metadata := encode_append_indexIn stands
  rw [index] at metadata
  have length := congrArg List.length metadata
  rw [List.length_append, h.length_encode, List.length_take, Nat.min_eq_left (ends ▸ room)] at length
  refine build_eq_ok.2 ⟨h, ⟨rfl, ?_, ?_⟩, ?_⟩
  · exact Nat.add_left_cancel length.symm
  · rw [length, List.length_drop, ends]
    omega
  · rw [metadata, List.take_append_drop]

/-- Bodies are accepted exactly as they are built. What was built tells its own length whatever follows
it. Just if its flags declare integrity metadata it says so, and then these are its header and index,
of an entry of 32 bytes for each block of 1024 bytes; with the software primitives its content matches
just if they do and nothing follows. Every body whose content matches is built of its content under
its flags. -/
theorem bodies_accepted_exactly_as_built :
    (∀ content flags b, build content flags = .ok b → ∀ t : Bytes,
      PayloadFormat.indexed.contentLength (b ++ t) = some b.length ∧
      (PayloadFormat.indexed.integrityDeclared (b ++ t) = true ↔ flags &&& 1 = 1) ∧
      16 + 32 * ((content.length + 1023) / 1024) ≤ b.length ∧
      PayloadFormat.indexed.metadata (b ++ t) = (if flags &&& 1 = 1
        then some (b.take (16 + 32 * ((content.length + 1023) / 1024))) else none) ∧
      (PayloadFormat.indexed.contentMatches (b ++ t) .software = true ↔ flags &&& 1 = 1 ∧ t = [])) ∧
    ∀ body, PayloadFormat.indexed.contentMatches body .software = true →
      ∃ h, header? body = some h ∧ build (body.drop h.metadataEnd) h.flags = .ok body := by
  constructor
  · intro content flags b built t
    obtain ⟨h, d, rfl⟩ := build_eq_ok.1 built
    have header_index : (h.encode ++ indexOf content).length
        = 16 + 32 * ((content.length + 1023) / 1024) := by
      rw [List.length_append, h.length_encode, length_indexOf, IndexedHeader.headerSize]
    refine ⟨d.contentLength_append t, d.integrityDeclared_append t, ?_, ?_,
      contentMatches_append_iff d t⟩
    · rw [List.length_append, header_index]
      exact Nat.le_add_right _ _
    · rw [d.metadata_append, ← header_index, List.take_left]
  · intro body passes
    obtain ⟨h, found, ends, index⟩ := contentMatches_software_iff.1 passes
    exact ⟨h, (Option.filter_eq_some_iff.1 found).1, build_of_contentMatches found ends index⟩

/-- A content of one block and one byte more is built into a body with two entries, which matches as
it is, does not match with a byte behind it, and is what is built of its own content. -/
theorem two_blocks_accepted : ∃ b, build (List.replicate 1025 7) 1 = .ok b ∧
    PayloadFormat.indexed.contentLength (b ++ [0xff]) = some b.length ∧
    PayloadFormat.indexed.metadata (b ++ [0xff]) = some (b.take 80) ∧
    PayloadFormat.indexed.contentMatches (b ++ [0xff]) .software = false ∧
    PayloadFormat.indexed.contentMatches b .software = true ∧
    ∃ h, header? b = some h ∧ build (b.drop h.metadataEnd) h.flags = .ok b := by
  obtain ⟨b, built⟩ : ∃ b, build (List.replicate 1025 7) 1 = .ok b := by
    rw [exists_build_iff, length_indexOf, List.length_replicate]
    decide
  obtain ⟨accepted, unique⟩ := bodies_accepted_exactly_as_built
  obtain ⟨length, -, -, metadata, longer⟩ := accepted _ _ b built [0xff]
  obtain ⟨-, -, -, -, exact⟩ := accepted _ _ b built []
  rw [List.append_nil] at exact
  rw [List.length_replicate] at metadata
  have passes := exact.2 ⟨by decide, rfl⟩
  refine ⟨b, built, length, metadata, ?_, passes, unique b passes⟩
  exact Bool.eq_false_iff.2 fun h => absurd (longer.1 h).2 (by decide)

end IndexedPayload
end VerifiedBoot
