/-
Base64 and PEM read back. A group of three bytes and its four digits are the same 24 bits, so base64
reads back what it wrote group after group, the padded last one included. No digit is a dash and every
mark starts with one: what stands between two marks is found whole.
-/
import VerifiedBoot.Text.Pem
import Mathlib.Tactic

namespace VerifiedBoot

/-! ## Base64 -/

namespace Base64

/-- The digits and the padding are what encoding writes. -/
def IsWritten (c : Char) : Prop := c = '=' ∨ ∃ n < 64, c = digitChar n

theorem digitValue?_digitChar {n : Nat} (h : n < 64) : digitValue? (digitChar n) = some n := by
  have all : ∀ i : Fin 64, digitValue? (digitChar i) = some i.val := by decide +kernel
  exact all ⟨n, h⟩

theorem digitChar_ne {n : Nat} (h : n < 64) :
    digitChar n ≠ '=' ∧ digitChar n ≠ '-' ∧ isIgnored (digitChar n) = false := by
  have all : ∀ i : Fin 64,
      digitChar i ≠ '=' ∧ digitChar i ≠ '-' ∧ isIgnored (digitChar i) = false := by
    decide +kernel
  exact all ⟨n, h⟩

theorem isWritten_of_mem_encode {bs : Bytes} {c : Char} (h : c ∈ encode bs) : IsWritten c := by
  have digit {n : Nat} (hn : n < 64) : IsWritten (digitChar n) := .inr ⟨n, hn, rfl⟩
  induction bs using encode.induct with
  | case1 => cases h
  | case2 a =>
    have := a.toNat_lt
    simp only [encode, List.mem_cons, List.not_mem_nil, or_false] at h
    rcases h with rfl | rfl | rfl | rfl
    · exact digit (by omega)
    · exact digit (by omega)
    · exact .inl rfl
    · exact .inl rfl
  | case3 a b =>
    have := a.toNat_lt
    have := b.toNat_lt
    simp only [encode, List.mem_cons, List.not_mem_nil, or_false] at h
    rcases h with rfl | rfl | rfl | rfl
    · exact digit (by omega)
    · exact digit (by omega)
    · exact digit (by omega)
    · exact .inl rfl
  | case4 a b c' rest ih =>
    have := a.toNat_lt
    have := b.toNat_lt
    have := c'.toNat_lt
    simp only [encode, List.mem_cons] at h
    rcases h with rfl | rfl | rfl | rfl | h
    · exact digit (by omega)
    · exact digit (by omega)
    · exact digit (by omega)
    · exact digit (by omega)
    · exact ih h

theorem IsWritten.not_ignored {c : Char} (h : IsWritten c) : isIgnored c = false := by
  rcases h with rfl | ⟨n, hn, rfl⟩
  · rfl
  · exact (digitChar_ne hn).2.2

theorem IsWritten.ne_dash {c : Char} (h : IsWritten c) : c ≠ '-' := by
  rcases h with rfl | ⟨n, hn, rfl⟩
  · decide
  · exact (digitChar_ne hn).2.1

theorem ofNat_eq_of_toNat {b : UInt8} {n : Nat} (h : n % 256 = b.toNat) : UInt8.ofNat n = b := by
  rw [← UInt8.toNat_inj, UInt8.toNat_ofNat']
  exact h

theorem decodeGroups_encode (bs : Bytes) : decodeGroups (encode bs) = some bs := by
  induction bs using encode.induct with
  | case1 => rfl
  | case2 a =>
    have := a.toNat_lt
    rw [encode, decodeGroups.eq_2, digitValue?_digitChar (by omega), digitValue?_digitChar (by omega)]
    have bits : a.toNat * 16 / 64 * 64 + a.toNat * 16 % 64 = a.toNat * 16 := by omega
    show (if _ then _ else _) = _
    rw [bits, if_pos (by omega), ofNat_eq_of_toNat (b := a) (by omega)]
  | case3 a b =>
    have := a.toNat_lt
    have := b.toNat_lt
    rw [encode, decodeGroups.eq_3 _ _ _ (digitChar_ne (by omega)).1, digitValue?_digitChar (by omega),
      digitValue?_digitChar (by omega), digitValue?_digitChar (by omega)]
    generalize hn : (a.toNat * 256 + b.toNat) * 4 = n
    have bits : (n / 4096 * 64 + n / 64 % 64) * 64 + n % 64 = n := by omega
    show (if _ then _ else _) = _
    rw [bits, if_pos (by omega), ofNat_eq_of_toNat (b := a) (by omega),
      ofNat_eq_of_toNat (b := b) (by omega)]
  | case4 a b c rest ih =>
    have := a.toNat_lt
    have := b.toNat_lt
    have := c.toNat_lt
    have last : digitChar (((a.toNat * 256 + b.toNat) * 256 + c.toNat) % 64) ≠ '=' :=
      (digitChar_ne (by omega)).1
    rw [encode.eq_4, decodeGroups.eq_4 _ _ _ _ _ (fun _ h _ => last h) (fun h _ => last h), ih,
      digitValue?_digitChar (by omega), digitValue?_digitChar (by omega),
      digitValue?_digitChar (by omega), digitValue?_digitChar (by omega)]
    generalize hn : (a.toNat * 256 + b.toNat) * 256 + c.toNat = n
    have bits : ((n / 262144 * 64 + n / 4096 % 64) * 64 + n / 64 % 64) * 64 + n % 64 = n := by omega
    show some (_ :: _ :: _ :: rest) = _
    rw [bits, ofNat_eq_of_toNat (b := a) (by omega), ofNat_eq_of_toNat (b := b) (by omega),
      ofNat_eq_of_toNat (b := c) (by omega)]

/-- Digits on a line of their own are read as the bytes that they were written for. -/
theorem decode_encode_line (bs : Bytes) : decode ('\n' :: encode bs ++ ['\n']) = some bs := by
  have kept : (encode bs).filter (!isIgnored ·) = encode bs :=
    List.filter_eq_self.2 fun c hc => by rw [(isWritten_of_mem_encode hc).not_ignored]; rfl
  have line : ('\n' :: encode bs ++ ['\n']).filter (!isIgnored ·) = encode bs := by
    rw [List.cons_append, List.filter_cons_of_neg (by decide), List.filter_append, kept,
      List.filter_cons_of_neg (by decide), List.filter_nil, List.append_nil]
  rw [decode, line, decodeGroups_encode]

end Base64

/-! ## Marks -/

namespace Pem

variable {mark before after cs : List Char}

/-- A text is split at a mark that stands in it. -/
theorem eq_of_splitAtMark (h : splitAtMark mark cs = some (before, after)) :
    cs = before ++ mark ++ after := by
  induction cs generalizing before with
  | nil =>
    unfold splitAtMark at h
    split_ifs at h with empty
    cases h
    rw [List.isEmpty_iff.1 empty]
    rfl
  | cons c cs ih =>
    unfold splitAtMark at h
    split_ifs at h with start
    · cases h
      exact List.prefix_append_drop (List.isPrefixOf_iff_prefix.1 start)
    · obtain ⟨⟨before', after'⟩, found, split⟩ := Option.map_eq_some_iff.1 h
      cases split
      rw [ih found]
      rfl

theorem splitAtMark_start (c : Char) (mark after : List Char) :
    splitAtMark (c :: mark) (c :: mark ++ after) = some ([], after) := by
  have start : (c :: mark).isPrefixOf (c :: mark ++ after) = true :=
    List.isPrefixOf_iff_prefix.2 (List.prefix_append _ _)
  show (if (c :: mark).isPrefixOf (c :: mark ++ after) then _ else _) = _
  rw [if_pos start]
  exact congrArg (fun rest => some ([], rest)) List.drop_left

/-- A mark is not found in text that lacks its first character. -/
theorem splitAtMark_append {c : Char} (h : c ∉ before) :
    splitAtMark (c :: mark) (before ++ cs)
      = (splitAtMark (c :: mark) cs).map fun (b, a) => (before ++ b, a) := by
  induction before with
  | nil => simp
  | cons d before ih =>
    have other : ¬ (c :: mark).isPrefixOf (d :: (before ++ cs)) = true := by
      intro start
      have first := (List.cons_prefix_cons.1 (List.isPrefixOf_iff_prefix.1 start)).1
      exact h (first ▸ List.mem_cons_self)
    rw [List.cons_append, splitAtMark, if_neg other,
      ih fun hc => h (List.mem_cons_of_mem _ hc), Option.map_map]
    rfl

/-! ## Text -/

/-- Text is read as the bytes that it was written for, if its last line does not begin another text. -/
theorem decode_encode {label : String}
    (apart : splitAtMark (beginMark label) (endMark label ++ ['\n']) = none) (bs : Bytes) :
    decode label (encode label bs) = some bs := by
  have noDash : '-' ∉ '\n' :: Base64.encode bs ++ ['\n'] := by
    intro h
    simp only [List.cons_append, List.mem_cons, List.mem_append, List.not_mem_nil, or_false] at h
    rcases h with newline | digit | newline
    · exact absurd newline (by decide)
    · exact (Base64.isWritten_of_mem_encode digit).ne_dash rfl
    · exact absurd newline (by decide)
  obtain ⟨beginRest, hbegin⟩ : ∃ rest, beginMark label = '-' :: rest := by
    simp [beginMark, String.toList_append]
  obtain ⟨endRest, hend⟩ : ∃ rest, endMark label = '-' :: rest := by
    simp [endMark, String.toList_append]
  have text : encode label bs = beginMark label
      ++ (('\n' :: Base64.encode bs ++ ['\n']) ++ (endMark label ++ ['\n'])) := by
    simp [encode]
  have inside : beforeMark (beginMark label)
      (('\n' :: Base64.encode bs ++ ['\n']) ++ (endMark label ++ ['\n']))
        = ('\n' :: Base64.encode bs ++ ['\n']) ++ (endMark label ++ ['\n']) := by
    unfold beforeMark
    rw [hbegin] at apart ⊢
    rw [splitAtMark_append noDash, apart]
    rfl
  unfold decode
  rw [text, hbegin, splitAtMark_start, ← hbegin]
  show (splitAtMark (endMark label) (beforeMark (beginMark label) _)).bind _ = _
  rw [inside, hend, splitAtMark_append noDash, splitAtMark_start]
  show Base64.decode (_ ++ []) = _
  rw [List.append_nil, Base64.decode_encode_line]

/-- Text that can be read holds a mark at each end. -/
theorem length_of_decode {label : String} {bs : Bytes} (h : decode label cs = some bs) :
    (beginMark label).length + (endMark label).length ≤ cs.length := by
  unfold decode at h
  obtain ⟨⟨before, after⟩, hbegin, h⟩ := Option.bind_eq_some_iff.1 h
  obtain ⟨⟨digits, rest⟩, hend, -⟩ := Option.bind_eq_some_iff.1 h
  have whole := congrArg List.length (eq_of_splitAtMark hbegin)
  have part := congrArg List.length (eq_of_splitAtMark hend)
  have cut : (beforeMark (beginMark label) after).length ≤ after.length := by
    unfold beforeMark
    split
    · next found =>
      have := congrArg List.length (eq_of_splitAtMark found)
      simp only [List.length_append] at this
      omega
    · exact le_rfl
  simp only [List.length_append] at whole part
  omega

end Pem
end VerifiedBoot
