/-
The search for the map of an image. It goes from signature to signature, rejects what cannot be read
at one and goes on behind its first byte, so that signatures that overlap are all looked at. No map
is skipped, whatever was rejected before it: the search finds the first map that can be read, and none
just if none can be read anywhere.
-/
import VerifiedBoot.Proofs.Bounds.FlashMaps
import VerifiedBoot.Proofs.Codec.FlashMap

namespace VerifiedBoot

/-! ## The first map -/

namespace FlashMap
variable {m : FlashMap} {image image' : Bytes} {position : Nat}

theorem position_of_parseAt (h : parseAt image position = .ok m) : m.position = position :=
  (parseAt_eq_ok_iff.1 h).1

/-- A map that is read is in the image. -/
theorem lt_length_of_parseAt (h : parseAt image position = .ok m) : position < image.length := by
  obtain ⟨-, -, bs, encoded, there⟩ := parseAt_eq_ok_iff.1 h
  have inside := (Bytes.slice_eq_some.1 there).1
  have length := length_encode encoded
  unfold encodedSize headerSize at length
  omega

/-- The search from an offset on finds the first map that can be read from there on. -/
theorem findAfter_eq_some_iff {start : Nat} : findAfter image start = some m ↔
    start ≤ m.position ∧ parseAt image m.position = .ok m ∧
      ∀ q, start ≤ q → q < m.position → ∀ m', parseAt image q ≠ .ok m' := by
  -- the induction is on the number of offsets that are left to look at
  induction room : image.length - start generalizing start with
  | zero =>
    rw [findAfter_of_le (by omega)]
    refine iff_of_false nofun ?_
    rintro ⟨le, read, -⟩
    have inside := lt_length_of_parseAt read
    omega
  | succ n ih =>
    rw [findAfter_of_lt (by omega)]
    cases here : parseAt image start with
    | ok map =>
      have at_start := position_of_parseAt here
      constructor
      · intro h
        obtain rfl := Option.some.inj h
        rw [at_start]
        exact ⟨le_rfl, here, fun q le lt => absurd le (Nat.not_le_of_gt lt)⟩
      · rintro ⟨le, read, first⟩
        -- a map that stood further on would not be the first
        rcases Nat.lt_or_eq_of_le le with lt | eq
        · exact absurd here (first start le_rfl lt map)
        · rw [← eq, here] at read
          exact congrArg some (Except.ok.inj read)
    | error e =>
      show findAfter image (start + 1) = some m ↔ _
      rw [ih (by omega)]
      constructor
      · rintro ⟨le, read, first⟩
        refine ⟨by omega, read, fun q hq lt m' => ?_⟩
        rcases Nat.lt_or_eq_of_le hq with lt' | rfl
        · exact first q lt' lt m'
        · rw [here]
          nofun
      · rintro ⟨le, read, first⟩
        refine ⟨Nat.lt_of_le_of_ne le ?_, read, fun q hq => first q (by omega)⟩
        rintro rfl
        rw [here] at read
        cases read

/-- The map of an image is the first that can be read. -/
theorem find_eq_some_iff : find image = some m ↔ parseAt image m.position = .ok m ∧
    ∀ q < m.position, ∀ m', parseAt image q ≠ .ok m' := by
  have fromStart : find image = findAfter image 0 := rfl
  rw [fromStart, findAfter_eq_some_iff]
  simp only [Nat.zero_le, true_and, true_implies]

/-- Where a map can be read, a map is found there or before. -/
theorem find_of_parseAt (h : parseAt image position = .ok m) :
    ∃ m', find image = some m' ∧ m'.position ≤ position := by
  classical
  have readable : ∃ q, ∃ m', parseAt image q = .ok m' := ⟨position, m, h⟩
  obtain ⟨first, read⟩ := Nat.find_spec readable
  have hfirst := position_of_parseAt read
  refine ⟨first, find_eq_some_iff.2 ⟨hfirst ▸ read, fun q lt m' hm' => ?_⟩, ?_⟩
  · rw [hfirst] at lt
    exact Nat.find_min readable lt ⟨m', hm'⟩
  · rw [hfirst]
    exact Nat.find_min' readable ⟨m, h⟩

/-- No map is found just if none can be read. -/
theorem find_eq_none_iff : find image = none ↔ ∀ p, ∃ e, parseAt image p = .error e := by
  constructor
  · intro none p
    cases here : parseAt image p with
    | error e => exact ⟨e, rfl⟩
    | ok m =>
      obtain ⟨m', found, -⟩ := find_of_parseAt here
      rw [none] at found
      cases found
  · intro unreadable
    cases found : find image with
    | none => rfl
    | some m =>
      obtain ⟨e, he⟩ := unreadable m.position
      rw [(find_eq_some_iff.1 found).1] at he
      cases he

/-! ## From signature to signature -/

/-- A search from an offset on, with the places of the signatures at which it rejects what stands
there, in the order in which it comes to them, and with what it finds. -/
inductive Search (image : Bytes) : Nat → List Nat → Option FlashMap → Prop
  | exhausted {start : Nat} (nowhere : signaturePosition (image.drop start) = none) :
      Search image start [] none
  | accepted {start ahead : Nat} {m : FlashMap}
      (there : signaturePosition (image.drop start) = some ahead)
      (read : parseAt image (start + ahead) = .ok m) : Search image start [] (some m)
  | rejected {start ahead : Nat} {e : CodecError} {rest : List Nat} {result : Option FlashMap}
      (there : signaturePosition (image.drop start) = some ahead)
      (unread : parseAt image (start + ahead) = .error e)
      (next : Search image (start + ahead + 1) rest result) :
      Search image start ((start + ahead) :: rest) result

namespace Search
variable {start : Nat} {rejected : List Nat} {result : Option FlashMap}

/-- From every offset there is a search, and it comes to an end. -/
theorem exists_from (image : Bytes) (start : Nat) :
    ∃ rejected result, Search image start rejected result := by
  -- after a signature, fewer bytes are left
  induction left : image.length - start using Nat.strongRecOn generalizing start with
  | ind left ih =>
    cases there : signaturePosition (image.drop start) with
    | none => exact ⟨_, _, exhausted there⟩
    | some ahead =>
      have inside := signaturePosition_lt there
      rw [List.length_drop] at inside
      cases here : parseAt image (start + ahead) with
      | ok m => exact ⟨_, _, accepted there here⟩
      | error e =>
        obtain ⟨rest, result, next⟩ := ih _ (by omega) (start + ahead + 1) rfl
        exact ⟨_, _, .rejected there here next⟩

/-- A search finds what reading at each offset in turn finds. -/
theorem result_eq (h : Search image start rejected result) : result = findAfter image start := by
  induction h with
  | @exhausted start nowhere =>
    by_cases inside : start ≤ image.length
    · rw [findAfter_skip inside (by rw [nowhere]; nofun), findAfter_of_le le_rfl]
    · rw [findAfter_of_le (by omega)]
  | accepted there read =>
    obtain ⟨inside, skipped⟩ := findAfter_signature there
    rw [skipped, findAfter_of_lt inside, read]
  | rejected there unread next ih =>
    obtain ⟨inside, skipped⟩ := findAfter_signature there
    rw [ih, skipped, findAfter_of_lt inside, unread]

/-- Each search goes the same way. -/
theorem unique {rejected' : List Nat} {result' : Option FlashMap}
    (h : Search image start rejected result) (h' : Search image start rejected' result') :
    rejected' = rejected ∧ result' = result := by
  refine ⟨?_, h'.result_eq.trans h.result_eq.symm⟩
  induction h generalizing rejected' result' with
  | exhausted nowhere =>
    cases h' with
    | exhausted _ => rfl
    | accepted there _ => cases nowhere.symm.trans there
    | rejected there _ _ => cases nowhere.symm.trans there
  | accepted there read =>
    cases h' with
    | exhausted _ => rfl
    | accepted _ _ => rfl
    | rejected there' unread _ =>
      obtain rfl := Option.some.inj (there.symm.trans there')
      cases read.symm.trans unread
  | rejected there unread next ih =>
    cases h' with
    | exhausted nowhere => cases there.symm.trans nowhere
    | accepted there' read =>
      obtain rfl := Option.some.inj (there.symm.trans there')
      cases unread.symm.trans read
    | rejected there' _ next' =>
      obtain rfl := Option.some.inj (there.symm.trans there')
      rw [ih next']

/-- What is found stands where the search starts or further on. -/
theorem le_position (h : Search image start rejected (some m)) : start ≤ m.position :=
  (findAfter_eq_some_iff.1 h.result_eq.symm).1

/-- What is rejected are the signatures from the start of the search to what it finds. -/
theorem mem_rejected_iff (h : Search image start rejected result) {p : Nat} : p ∈ rejected ↔
    start ≤ p ∧ signature <+: image.drop p ∧ ∀ m, result = some m → p < m.position := by
  -- a signature further on stands at the first one or behind it
  have reached {start ahead : Nat} (there : signaturePosition (image.drop start) = some ahead)
      (from_start : start ≤ p) (stands : signature <+: image.drop p) : start + ahead ≤ p := by
    by_contra before
    refine not_signature_of_lt from_start (fun n hn => ?_) stands
    obtain rfl := Option.some.inj (there.symm.trans hn)
    exact not_le.1 before
  induction h with
  | exhausted nowhere =>
    refine iff_of_false List.not_mem_nil ?_
    rintro ⟨from_start, stands, -⟩
    exact not_signature_of_lt from_start (by rw [nowhere]; nofun) stands
  | accepted there read =>
    refine iff_of_false List.not_mem_nil ?_
    rintro ⟨from_start, stands, before⟩
    have at_map := before _ rfl
    rw [position_of_parseAt read] at at_map
    exact absurd at_map (Nat.not_lt_of_ge (reached there from_start stands))
  | rejected there unread next ih =>
    refine (List.mem_cons.trans (or_congr_right ih)).trans ?_
    constructor
    · rintro (rfl | ⟨behind, stands, before⟩)
      · refine ⟨Nat.le_add_right _ _, ?_, ?_⟩
        · rw [← List.drop_drop]
          exact prefix_of_signaturePosition there
        · rintro m rfl
          exact next.le_position
      · exact ⟨by omega, stands, before⟩
    · rintro ⟨from_start, stands, before⟩
      rcases Nat.lt_or_eq_of_le (reached there from_start stands) with behind | here
      · exact .inr ⟨behind, stands, before⟩
      · exact .inl here.symm

/-- Signatures are rejected in the order of their places. -/
theorem pairwise_rejected (h : Search image start rejected result) :
    rejected.Pairwise (· < ·) := by
  induction h with
  | exhausted _ => exact .nil
  | accepted _ _ => exact .nil
  | rejected _ _ next ih =>
    exact List.pairwise_cons.2 ⟨fun p hp => (next.mem_rejected_iff.1 hp).1, ih⟩

end Search

/-- The map of an image is the first that can be read: the one at the least offset at which reading
succeeds, or none just if it fails at each. From the start of every image there is one search, which
comes to an end. It finds this map, and rejects all signatures before it, or all there are if there is
none, each once and in order. -/
theorem find_first_readable (image : Bytes) :
    (∀ m, find image = some m ↔ ∃ position, parseAt image position = .ok m ∧
      ∀ q < position, ∃ e, parseAt image q = .error e) ∧
    (find image = none ↔ ∀ position, ∃ e, parseAt image position = .error e) ∧
    ∃ rejected, Search image 0 rejected (find image) ∧
      (∀ rejected' result, Search image 0 rejected' result →
        rejected' = rejected ∧ result = find image) ∧
      rejected.Pairwise (· < ·) ∧
      ∀ p, p ∈ rejected ↔
        signature <+: image.drop p ∧ ∀ m, find image = some m → p < m.position := by
  have unreadable {q : Nat} : (∃ e, parseAt image q = .error e) ↔
      ∀ m, parseAt image q ≠ .ok m := by
    cases parseAt image q with
    | ok m => exact iff_of_false nofun fun none => none m rfl
    | error e => exact iff_of_true ⟨e, rfl⟩ nofun
  refine ⟨fun m => ?_, find_eq_none_iff, ?_⟩
  · rw [find_eq_some_iff]
    simp only [unreadable]
    constructor
    · rintro ⟨read, first⟩
      exact ⟨m.position, read, first⟩
    · rintro ⟨position, read, first⟩
      rw [position_of_parseAt read]
      exact ⟨read, first⟩
  · obtain ⟨rejected, result, search⟩ := Search.exists_from image 0
    obtain rfl : result = find image := search.result_eq
    refine ⟨rejected, search, fun _ _ => search.unique, search.pairwise_rejected, fun p => ?_⟩
    rw [search.mem_rejected_iff]
    simp only [Nat.zero_le, true_and]

/-- The bytes of an image with two signatures before its map: one overlaps the other, and the other is
followed by a version that is not read. -/
def decoyBytes : Bytes :=
  signature ++ signature.drop 2 ++ [7] ++ (build "FMAP" 0 0 []).encode.toOption.getD []

/-- The map behind both signatures is found. If its last byte is cut off, its signature is rejected
as well, and nothing is found. -/
theorem map_found_behind_decoys :
    find decoyBytes = some { build "FMAP" 0 0 [] with position := 15 } ∧
    (∀ p, p ∈ [0, 6] ↔ signature <+: decoyBytes.drop p ∧ p < 15) ∧
    find (decoyBytes.take 70) = none ∧
    ∀ p, p ∈ [0, 6, 15] ↔ signature <+: (decoyBytes.take 70).drop p := by
  -- the search of both images, up to the last signature
  have rejected {image : Bytes} {rest : List Nat} {result : Option FlashMap}
      (first : signaturePosition (image.drop 0) = some 0)
      (unread : parseAt image 0 = .error (.unsupportedVersion 70))
      (overlapping : signaturePosition (image.drop 1) = some 5)
      (unread' : parseAt image 6 = .error (.unsupportedVersion 7))
      (next : Search image 7 rest result) : Search image 0 (0 :: 6 :: rest) result :=
    .rejected first unread (.rejected overlapping unread' next)
  have whole : Search decoyBytes 0 [0, 6] (some { build "FMAP" 0 0 [] with position := 15 }) := by
    have there : signaturePosition (decoyBytes.drop 7) = some 8 := by decide +kernel
    refine rejected (by decide +kernel) (by decide +kernel) (by decide +kernel) (by decide +kernel) ?_
    exact .accepted there (by decide +kernel)
  have cut : Search (decoyBytes.take 70) 0 [0, 6, 15] none := by
    have there : signaturePosition ((decoyBytes.take 70).drop 7) = some 8 := by decide +kernel
    have short : parseAt (decoyBytes.take 70) 15 = .error .truncated := by decide +kernel
    refine rejected (by decide +kernel) (by decide +kernel) (by decide +kernel) (by decide +kernel) ?_
    exact .rejected there short (.exhausted (by decide +kernel))
  obtain ⟨-, -, _, -, unique, -, mem⟩ := find_first_readable decoyBytes
  obtain ⟨rfl, found⟩ := unique _ _ whole
  obtain ⟨-, -, _, -, unique', -, mem'⟩ := find_first_readable (decoyBytes.take 70)
  obtain ⟨rfl, none⟩ := unique' _ _ cut
  refine ⟨found.symm, fun p => (mem p).trans ?_, none.symm, fun p => (mem' p).trans ?_⟩
  · rw [← found]
    exact and_congr_right fun _ => ⟨fun before => before _ rfl, by rintro before _ ⟨⟩; exact before⟩
  · rw [← none]
    exact and_iff_left nofun

/-! ## Images that agree on a map -/

/-- The bytes of a map in its image. -/
def extent (m : FlashMap) : Area := ⟨m.position, encodedSize m.areas.length⟩

/-- The bytes that a header at an offset would have. -/
def headerAt (position : Nat) : Area := ⟨position, headerSize⟩

/-- A map is read in every image that has its bytes. -/
theorem parseAt_of_extent (h : parseAt image m.position = .ok m)
    (same : m.extent.slice image' = m.extent.slice image) : parseAt image' m.position = .ok m := by
  obtain ⟨-, hmajor, bs, encoded, there⟩ := parseAt_eq_ok_iff.1 h
  rw [length_encode encoded] at there
  refine parseAt_eq_ok_iff.2 ⟨rfl, hmajor, bs, encoded, ?_⟩
  rw [length_encode encoded]
  exact same.trans there

/-- Where two images of one length have the same header, there is a map to read in both or in none. -/
theorem readable_congr (length : image'.length = image.length)
    (same : (headerAt position).slice image' = (headerAt position).slice image) :
    (∃ m, parseAt image' position = .ok m) ↔ ∃ m, parseAt image position = .ok m := by
  unfold Area.slice headerAt at same
  simp only [exists_parseAt_iff, same, length]

/-- In an image of the same length that has the bytes of the map, the map is found, or a map before
it with a header that has changed. -/
theorem find_of_extent (found : find image = some m) (length : image'.length = image.length)
    (same : m.extent.slice image' = m.extent.slice image) :
    ∃ m', find image' = some m' ∧ (m' = m ∨ m'.position < m.position ∧
      (headerAt m'.position).slice image' ≠ (headerAt m'.position).slice image) := by
  obtain ⟨read, first⟩ := find_eq_some_iff.1 found
  have there := parseAt_of_extent read same
  obtain ⟨m', found', le⟩ := find_of_parseAt there
  have read' := (find_eq_some_iff.1 found').1
  refine ⟨m', found', ?_⟩
  rcases Nat.lt_or_eq_of_le le with lt | eq
  · refine .inr ⟨lt, fun header => ?_⟩
    obtain ⟨earlier, hearlier⟩ := (readable_congr length header).1 ⟨m', read'⟩
    exact first _ lt earlier hearlier
  · rw [eq, there] at read'
    exact .inl (Except.ok.inj read').symm

end FlashMap
end VerifiedBoot
