/-
Text as bytes, and back. The bytes of a text are those of its characters one after another; the
decoder is between two characters before and after each of them, and has decoded that one, so that
it reads every text as it is. Only the character zero has a zero byte: a text is cut at its first
zero character where its bytes are cut at the first zero byte.
-/
import VerifiedBoot.Text.Utf8
import Mathlib.Tactic

namespace VerifiedBoot

/-! ## Bytes of a text -/

namespace Bytes

theorem ofText_ofList (cs : List Char) :
    ofText (String.ofList cs) = cs.flatMap String.utf8EncodeChar := by
  rw [ofText, String.toUTF8_eq_toByteArray, String.toByteArray_ofList, List.utf8Encode,
    List.toList_data_toByteArray]

theorem ofText_eq (s : String) : ofText s = s.toList.flatMap String.utf8EncodeChar := by
  rw [← ofText_ofList, String.ofList_toList]

theorem length_ofText (s : String) : (ofText s).length = s.utf8ByteSize := by
  rw [ofText, String.toUTF8_eq_toByteArray, ← String.size_toByteArray, Array.length_toList,
    ByteArray.size]

theorem ofText_inj {s t : String} : ofText s = ofText t ↔ s = t := by
  constructor
  · intro h
    refine String.toByteArray_inj.1 (ByteArray.ext (Array.toList_inj.1 ?_))
    simpa only [ofText, String.toUTF8_eq_toByteArray] using h
  · rintro rfl
    rfl

/-! ## Zero bytes -/

/-- No character but zero has a zero byte. -/
theorem zero_mem_encodeChar {c : Char} : (0 : UInt8) ∈ String.utf8EncodeChar c ↔ c = Char.ofNat 0 := by
  constructor
  · intro h
    have zero : c.toNat = 0 := by
      unfold String.utf8EncodeChar at h
      simp only at h
      -- all bytes but that of a single one have a bit set
      split_ifs at h <;> simp only [List.mem_cons, List.not_mem_nil, or_false, ← UInt8.toNat_inj,
        UInt8.toNat_ofNat', UInt8.toNat_zero] at h
      · show c.val.toNat = 0
        omega
      all_goals omega
    rw [← Char.ofNat_toNat c, zero]
  · rintro rfl
    decide

theorem zero_mem_ofText {s : String} : (0 : UInt8) ∈ ofText s ↔ Char.ofNat 0 ∈ s.toList := by
  rw [ofText_eq, List.mem_flatMap]
  constructor
  · rintro ⟨c, hc, h⟩
    exact zero_mem_encodeChar.1 h ▸ hc
  · intro h
    exact ⟨_, h, zero_mem_encodeChar.2 rfl⟩

theorem untilZero_of_not_mem {bs : Bytes} (h : (0 : UInt8) ∉ bs) (t : Bytes) :
    untilZero (bs ++ t) = bs ++ untilZero t := by
  refine List.takeWhile_append_of_pos fun b hb => ?_
  simpa using fun zero : b = 0 => h (zero ▸ hb)

end Bytes

/-- A text up to its first zero character. -/
def beforeZero (s : String) : String := String.ofList (s.toList.takeWhile (· ≠ Char.ofNat 0))

/-- Bytes of a text are cut at the first zero byte where the text is cut at the first zero character,
whatever follows once there is one. -/
theorem Bytes.untilZero_ofText (s : String) (t : Bytes) :
    untilZero (ofText s ++ 0 :: t) = ofText (beforeZero s) := by
  rw [beforeZero, ofText_ofList, ofText_eq]
  induction s.toList with
  | nil => rfl
  | cons c cs ih =>
    rw [List.flatMap_cons, List.append_assoc]
    by_cases zero : c = Char.ofNat 0
    · subst zero
      rfl
    · have kept : (c :: cs).takeWhile (· ≠ Char.ofNat 0) = c :: cs.takeWhile (· ≠ Char.ofNat 0) :=
        List.takeWhile_cons_of_pos (by simpa using zero)
      rw [untilZero_of_not_mem (fun h => zero (zero_mem_encodeChar.1 h)), ih, kept, List.flatMap_cons]

/-! ## Decoding -/

namespace Utf8
namespace Decoder

variable {d : List (Option Char)} {b : UInt8}

theorem first_one (h : b.toNat < 0x80) : first d b = ⟨none, some (Char.ofNat b.toNat) :: d⟩ :=
  if_pos h

theorem first_two {k : Nat} (h : b.toNat = 0xC0 + k) (low : 2 ≤ k) (high : k < 32) :
    first d b = ⟨some ⟨k, 1, 0x80, 0xBF⟩, d⟩ := by
  have bits : b.toNat % 32 = k := by omega
  unfold first
  simp only [bits]
  rw [if_neg (by omega), if_neg (by omega), if_pos (by omega)]

/-- After the first byte of three, the range of the second leaves out what two bytes can say, and the
surrogates. -/
theorem first_three {k : Nat} (h : b.toNat = 0xE0 + k) (high : k < 16) : first d b =
    ⟨some ⟨k, 2, if k = 0 then 0xA0 else 0x80, if k = 13 then 0x9F else 0xBF⟩, d⟩ := by
  have bits : b.toNat % 16 = k := by omega
  unfold first
  simp only [bits]
  rw [if_neg (by omega), if_neg (by omega), if_neg (by omega)]
  by_cases zero : k = 0
  · rw [if_pos (by omega), if_pos zero, if_neg (by omega)]
  · rw [if_neg (by omega), if_neg zero]
    by_cases surrogates : k = 13
    · rw [if_pos (by omega), if_pos surrogates]
    · rw [if_neg (by omega), if_pos (by omega), if_neg surrogates]

/-- After the first byte of four, the range of the second leaves out what three bytes can say, and
what lies beyond the last character. -/
theorem first_four {k : Nat} (h : b.toNat = 0xF0 + k) (high : k ≤ 4) : first d b =
    ⟨some ⟨k, 3, if k = 0 then 0x90 else 0x80, if k = 4 then 0x8F else 0xBF⟩, d⟩ := by
  have bits : b.toNat % 8 = k := by omega
  unfold first
  simp only [bits]
  rw [if_neg (by omega), if_neg (by omega), if_neg (by omega), if_neg (by omega), if_neg (by omega),
    if_neg (by omega)]
  by_cases zero : k = 0
  · rw [if_pos (by omega), if_pos zero, if_neg (by omega)]
  · rw [if_neg (by omega), if_neg zero]
    by_cases last : k = 4
    · rw [if_neg (by omega), if_pos (by omega), if_pos last]
    · rw [if_pos (by omega), if_neg last]

/-- A byte of a character after its first, with six bits. -/
theorem toNat_further (n : Nat) : (UInt8.ofNat (n % 0x40 + 0x80)).toNat = n % 64 + 128 := by
  rw [UInt8.toNat_ofNat']
  omega

section Further
variable {bits low high n : Nat}

theorem step_further {missing : Nat} (hlow : low ≤ n % 64 + 128) (hhigh : n % 64 + 128 ≤ high) :
    step ⟨some ⟨bits, missing + 2, low, high⟩, d⟩ (UInt8.ofNat (n % 0x40 + 0x80))
      = ⟨some ⟨bits * 64 + n % 64, missing + 1, 0x80, 0xBF⟩, d⟩ := by
  have low6 : (n % 64 + 128) % 64 = n % 64 := by omega
  simp only [step, toNat_further, low6]
  rw [if_pos ⟨hlow, hhigh⟩, if_neg (by omega), Nat.add_sub_cancel (missing + 1) 1]

theorem step_last (hlow : low ≤ n % 64 + 128) (hhigh : n % 64 + 128 ≤ high) :
    step ⟨some ⟨bits, 1, low, high⟩, d⟩ (UInt8.ofNat (n % 0x40 + 0x80))
      = ⟨none, some (Char.ofNat (bits * 64 + n % 64)) :: d⟩ := by
  have low6 : (n % 64 + 128) % 64 = n % 64 := by omega
  simp only [step, toNat_further, low6]
  rw [if_pos ⟨hlow, hhigh⟩, if_pos le_rfl]

end Further

/-- Between two characters, the bytes of the next one are read as that one. -/
theorem foldl_step_encodeChar (c : Char) :
    (String.utf8EncodeChar c).foldl step ⟨none, d⟩ = ⟨none, some c :: d⟩ := by
  have valid : c.val.toNat < 0xD800 ∨ 0xDFFF < c.val.toNat ∧ c.val.toNat < 0x110000 := c.valid
  have back : Char.ofNat c.val.toNat = c := Char.ofNat_toNat c
  unfold String.utf8EncodeChar
  generalize c.val.toNat = n at valid back
  simp only
  -- as many bytes as the number of the character needs
  split_ifs with one two three
  · have byte : (UInt8.ofNat n).toNat = n := UInt8.toNat_ofNat_of_lt' (by unfold UInt8.size; omega)
    show first d _ = _
    rw [first_one (by omega), byte, back]
  · have byte : (UInt8.ofNat (n / 64 % 0x20 + 0xc0)).toNat = 0xC0 + n / 64 := by
      rw [UInt8.toNat_ofNat']
      omega
    have bits : n / 64 * 64 + n % 64 = n := by omega
    show step (first d _) _ = _
    rw [first_two byte (by omega) (by omega), step_last (by omega) (by omega), bits, back]
  · have byte : (UInt8.ofNat (n / 4096 % 0x10 + 0xe0)).toNat = 0xE0 + n / 4096 := by
      rw [UInt8.toNat_ofNat']
      omega
    have bits : (n / 4096 * 64 + n / 64 % 64) * 64 + n % 64 = n := by omega
    show step (step (first d _) _) _ = _
    rw [first_three byte (by omega), step_further (by split_ifs <;> omega) (by split_ifs <;> omega),
      step_last (by omega) (by omega), bits, back]
  · have byte : (UInt8.ofNat (n / 262144 % 0x08 + 0xf0)).toNat = 0xF0 + n / 262144 := by
      rw [UInt8.toNat_ofNat']
      omega
    have bits : ((n / 262144 * 64 + n / 4096 % 64) * 64 + n / 64 % 64) * 64 + n % 64 = n := by omega
    show step (step (step (first d _) _) _) _ = _
    rw [first_four byte (by omega), step_further (by split_ifs <;> omega) (by split_ifs <;> omega),
      step_further (by omega) (by omega), step_last (by omega) (by omega), bits, back]

theorem foldl_step_encodeChars (cs : List Char) :
    (cs.flatMap String.utf8EncodeChar).foldl step ⟨none, d⟩ = ⟨none, (cs.map some).reverse ++ d⟩ := by
  induction cs generalizing d with
  | nil => rfl
  | cons c cs ih =>
    rw [List.flatMap_cons, List.foldl_append, foldl_step_encodeChar, ih]
    simp

end Decoder

/-- The bytes of a text are read as its characters, without a fault. -/
theorem characters_ofText (s : String) : characters (Bytes.ofText s) = s.toList.map some := by
  unfold characters
  rw [Bytes.ofText_eq, Decoder.empty, Decoder.foldl_step_encodeChars]
  simp [Decoder.finish]

theorem decodeLossy_ofText (s : String) : decodeLossy (Bytes.ofText s) = s := by
  rw [decodeLossy, characters_ofText, List.map_map]
  show String.ofList (s.toList.map id) = s
  rw [List.map_id, String.ofList_toList]

/-! ## Strict decoding -/

/-- Bytes without a fault are those that the decoder reads as characters only. -/
theorem decodeChars?_eq_some_iff {bs : Bytes} {cs : List Char} :
    decodeChars? bs = some cs ↔ characters bs = cs.map some := by
  unfold decodeChars?
  generalize characters bs = l
  induction l generalizing cs with
  | nil => cases cs <;> simp
  | cons c l ih =>
    rw [List.mapM_cons]
    cases c with
    | none => cases cs <;> simp
    | some c =>
      simp only [id, Option.bind_eq_bind, Option.bind_some, Option.bind_eq_some_iff, Option.pure_def,
        Option.some.injEq, ih]
      constructor
      · rintro ⟨cs, rfl, rfl⟩
        rfl
      · intro h
        cases cs with
        | nil => cases h
        | cons d cs =>
          obtain ⟨⟨⟩, rest⟩ := List.cons.inj h
          exact ⟨cs, rest, rfl⟩

theorem decodeChars?_ofText (s : String) : decodeChars? (Bytes.ofText s) = some s.toList :=
  decodeChars?_eq_some_iff.2 (characters_ofText s)

namespace Decoder

/-- What has been decoded so far, with the sequence that is not finished. -/
def count (d : Decoder) : Nat := d.decoded.length + if d.pending.isSome then 1 else 0

theorem count_first (decoded : List (Option Char)) (b : UInt8) :
    (first decoded b).count = decoded.length + 1 := by
  unfold first count
  simp only
  split_ifs <;> simp_all

/-- No byte makes more than one character or fault. -/
theorem count_step (d : Decoder) (b : UInt8) : (step d b).count ≤ d.count + 1 := by
  obtain ⟨_ | p, decoded⟩ := d
  · exact (count_first decoded b).le
  · show (if _ then _ else _ : Decoder).count ≤ decoded.length + 1 + 1
    split_ifs
    · exact Nat.le_succ _
    · exact Nat.le_succ _
    · exact (count_first (none :: decoded) b).le

theorem count_foldl_step (d : Decoder) (bs : Bytes) :
    (bs.foldl step d).count ≤ d.count + bs.length := by
  induction bs generalizing d with
  | nil => exact le_rfl
  | cons b bs ih =>
    have := ih (step d b)
    have := count_step d b
    rw [List.foldl_cons, List.length_cons]
    omega

end Decoder

/-- There are no more characters than bytes. -/
theorem length_decodeChars?_le {bs : Bytes} {cs : List Char} (h : decodeChars? bs = some cs) :
    cs.length ≤ bs.length := by
  have decoded := congrArg List.length (decodeChars?_eq_some_iff.1 h)
  have finished (d : Decoder) : d.finish.length = d.count := by
    unfold Decoder.finish Decoder.count
    rw [List.length_reverse]
    split_ifs <;> rfl
  have bound := Decoder.count_foldl_step Decoder.empty bs
  rw [characters, finished, List.length_map] at decoded
  exact decoded ▸ bound.trans_eq (Nat.zero_add _)

end Utf8
end VerifiedBoot
