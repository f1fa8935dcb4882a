/-
Decimal numerals read back. A numeral has no zero in front, and on its line it stands alone: so it is
neither a truth value, nor a date or a time, nor a fraction, nor a number with a mark, and as an integer it
is read to its end.
-/
import VerifiedBoot.Proofs.Toml.Scanning
import VerifiedBoot.Toml.Scalar

namespace VerifiedBoot
namespace Toml
namespace Scalar

open Scan Text

/-! ## Digits -/

theorem range_of_isDigit {c : Char} (h : c.isDigit = true) : '0' ≤ c ∧ c ≤ '9' := by
  simpa [Char.isDigit, Char.le_def] using h

theorem digitValue?_of_isDigit {c : Char} (h : c.isDigit = true) :
    digitValue? c = some (c.toNat - '0'.toNat) :=
  if_pos (range_of_isDigit h)

theorem isDigitIn_of_mem_toDigits {n : Nat} {c : Char} (h : c ∈ Nat.toDigits 10 n) :
    isDigitIn 10 c = true := by
  have digit := Nat.isDigit_of_mem_toDigits (by decide) (by decide) h
  have nine : c.toNat ≤ '9'.toNat := (range_of_isDigit digit).2
  have value : c.toNat - '0'.toNat < 10 := by
    have : '9'.toNat = '0'.toNat + 9 := rfl
    omega
  rw [isDigitIn, digitValue?_of_isDigit digit]
  simpa using value

theorem ofDigits_toDigits (n : Nat) : ofDigits 10 (Nat.toDigits 10 n) = n := by
  have step : ∀ (m : Nat) (c : Char), c ∈ Nat.toDigits 10 n →
      10 * m + (digitValue? c).getD 0 = 10 * m + (c.toNat - '0'.toNat) := by
    intro m c hc
    rw [digitValue?_of_isDigit (Nat.isDigit_of_mem_toDigits (by decide) (by decide) hc)]
    rfl
  calc ofDigits 10 (Nat.toDigits 10 n)
      = (Nat.toDigits 10 n).foldl (fun m c => 10 * m + (c.toNat - '0'.toNat)) 0 :=
        List.foldl_ext _ _ 0 step
    _ = n := by rw [← Nat.ofDigitChars_eq_foldl, Nat.ofDigitChars_ten_toDigits]

/-- No numeral but that of zero starts with a zero. -/
theorem head_toDigits {n : Nat} (h : 0 < n) : (Nat.toDigits 10 n).head? ≠ some '0' := by
  induction n using Nat.strong_induction_on with
  | _ n ih =>
    by_cases small : n < 10
    · rw [Nat.toDigits_of_lt_base small]
      interval_cases n <;> decide
    · rw [Nat.toDigits_of_base_le (by decide) (not_lt.1 small),
        List.head?_append_of_ne_nil _ Nat.toDigits_ne_nil]
      exact ih (n / 10) (by omega) (by omega)

/-! ## Digits up to the end of a line -/

/-- A text with nothing but digits on its first line. -/
def DigitsLine (cs : List Char) : Prop :=
  ∃ ds rest, cs = ds ++ '\n' :: rest ∧ ∀ c ∈ ds, isDigitIn 10 c = true

namespace DigitsLine

variable {cs : List Char}

theorem head (h : DigitsLine cs) {c : Char} (hc : cs.head? = some c) : isDigitIn 10 c = true ∨ c = '\n' := by
  obtain ⟨ds, rest, rfl, digits⟩ := h
  cases ds with
  | nil => exact .inr (Option.some.inj hc).symm
  | cons d ds => exact .inl (Option.some.inj hc ▸ digits d List.mem_cons_self)

theorem head_ne (h : DigitsLine cs) {x : Char} (other : isDigitIn 10 x = false) (feed : x ≠ '\n') :
    cs.head? ≠ some x := by
  intro hx
  rcases h.head hx with digit | same
  · exact absurd digit (by rw [other]; decide)
  · exact feed same

theorem char (h : DigitsLine cs) {x : Char} (other : isDigitIn 10 x = false) (feed : x ≠ '\n') :
    Scan.char x cs = none :=
  char_of_ne (h.head_ne other feed)

theorem word (h : DigitsLine cs) {x : Char} {w : List Char} (other : isDigitIn 10 x = false)
    (feed : x ≠ '\n') : Scan.word (x :: w) cs = none :=
  word_of_ne (h.head_ne other feed)

/-- A mark of a base ends in a letter. -/
theorem mark (h : DigitsLine cs) {x : Char} (other : isDigitIn 10 x = false) (feed : x ≠ '\n') :
    Scan.word ['0', x] cs = none := by
  obtain ⟨ds, rest, rfl, digits⟩ := h
  cases ds with
  | nil => exact word_of_ne (by simp)
  | cons d ds =>
    have after : DigitsLine (ds ++ '\n' :: rest) :=
      ⟨ds, rest, rfl, fun c hc => digits c (List.mem_cons_of_mem d hc)⟩
    refine word_of_not_prefix fun marked => ?_
    obtain ⟨t, ht⟩ := (List.cons_prefix_cons.1 marked).2
    exact after.head_ne other feed (congrArg List.head? ht).symm

theorem sign (h : DigitsLine cs) : Scalar.sign cs = some (false, cs) := by
  refine (orElse_of_none (bind_of_none (h.char (by decide) (by decide)))).trans ?_
  exact orElse_of_none (bind_of_none (h.char (by decide) (by decide)))

/-- Of digits some are taken, or there are not enough of them on the line. -/
theorem exactly (h : DigitsLine cs) (n : Nat) : Scan.exactly n (isDigitIn 10) cs = none ∨
    ∃ taken cs', DigitsLine cs' ∧ Scan.exactly n (isDigitIn 10) cs = some (taken, cs') := by
  obtain ⟨ds, rest, rfl, digits⟩ := h
  by_cases enough : n ≤ ds.length
  · refine .inr ⟨ds.take n, ds.drop n ++ '\n' :: rest,
      ⟨_, rest, rfl, fun c hc => digits c (List.mem_of_mem_drop hc)⟩, ?_⟩
    have parts : ds ++ '\n' :: rest = ds.take n ++ (ds.drop n ++ '\n' :: rest) := by
      rw [← List.append_assoc, List.take_append_drop]
    rw [parts]
    exact exactly_append (List.length_take_of_le enough)
      (List.all_eq_true.2 fun c hc => digits c (List.mem_of_mem_take hc))
  · refine .inl (if_neg fun ⟨_, all⟩ => ?_)
    have feed : '\n' ∈ (ds ++ '\n' :: rest).take n := by
      obtain ⟨m, hm⟩ : ∃ m, n - ds.length = m + 1 := ⟨n - ds.length - 1, by omega⟩
      rw [List.take_append, hm]
      exact List.mem_append_right _ List.mem_cons_self
    exact absurd (List.all_eq_true.1 all _ feed) (by decide)

theorem field (h : DigitsLine cs) (n least greatest : Nat) : Scalar.field n least greatest cs = none ∨
    ∃ v cs', DigitsLine cs' ∧ Scalar.field n least greatest cs = some (v, cs') := by
  unfold Scalar.field
  rcases h.exactly n with few | ⟨taken, cs', after, read⟩
  · exact .inl (bind_of_none few)
  · by_cases range : least ≤ ofDigits 10 taken ∧ ofDigits 10 taken ≤ greatest
    · exact .inr ⟨ofDigits 10 taken, cs', after,
        (bind_of_some read).trans (congrFun (if_pos range) cs')⟩
    · exact .inl ((bind_of_some read).trans (congrFun (if_neg range) cs'))

/-- A date has a dash after the year, and a time a colon after the hours. -/
theorem dateTime (h : DigitsLine cs) : Scalar.dateTime cs = none := by
  have noDate : date cs = none := by
    unfold date
    rcases h.field 4 0 9999 with none_read | ⟨v, cs', after, read⟩
    · exact bind_of_none none_read
    · rw [bind_of_some read]
      exact bind_of_none (after.char (by decide) (by decide))
  have noTime : time cs = none := by
    unfold time
    rcases h.field 2 0 23 with none_read | ⟨v, cs', after, read⟩
    · exact bind_of_none (discard_of_none none_read)
    · rw [bind_of_some (discard_of_some read)]
      exact bind_of_none (after.char (by decide) (by decide))
  exact bind_of_none ((orElse_of_none (bind_of_none noDate)).trans noTime)

end DigitsLine

/-! ## Numerals -/

variable (n : Nat) (rest : List Char)

theorem digitsLine_toDigits : DigitsLine (Nat.toDigits 10 n ++ '\n' :: rest) :=
  ⟨_, rest, rfl, fun _ => isDigitIn_of_mem_toDigits⟩

theorem repeats_digits {ds : List Char} (digits : ∀ c ∈ ds, isDigitIn 10 c = true) :
    Repeats (satisfy (isDigitIn 10) <|> (do char '_'; satisfy (isDigitIn 10)))
      (ds ++ '\n' :: rest) ds ('\n' :: rest) := by
  induction ds with
  | nil =>
    refine .stop ((orElse_of_none (satisfy_of_neg ?_)).trans (bind_of_none (char_of_ne (by simp))))
    rintro c ⟨⟩
    decide
  | cons d ds ih =>
    exact .cons (w := [d]) (List.cons_ne_nil d [])
      (orElse_of_some (satisfy_of_pos (digits d List.mem_cons_self)))
      (ih fun c hc => digits c (List.mem_cons_of_mem d hc))

theorem decimalDigits_toDigits :
    decimalDigits (Nat.toDigits 10 n ++ '\n' :: rest) = some (Nat.toDigits 10 n, '\n' :: rest) := by
  rcases Nat.eq_zero_or_pos n with rfl | pos
  · rfl
  · have head := head_toDigits pos
    have digits : ∀ c ∈ Nat.toDigits 10 n, isDigitIn 10 c = true := fun _ => isDigitIn_of_mem_toDigits
    cases written : Nat.toDigits 10 n with
    | nil => exact absurd written Nat.toDigits_ne_nil
    | cons d ds =>
      rw [written] at head digits
      have first : d ≠ '0' := fun same => head (congrArg some same)
      have all : Scalar.digits 10 (d :: ds ++ '\n' :: rest) = some (d :: ds, '\n' :: rest) := by
        unfold Scalar.digits
        refine (bind_of_some (satisfy_of_pos (digits d List.mem_cons_self))).trans ?_
        have more := repeats_digits rest fun c hc => digits c (List.mem_cons_of_mem d hc)
        exact (bind_of_some more.many).trans rfl
      unfold decimalDigits
      split
      · next same => exact absurd (List.cons.inj same).1 first
      · exact all

/-- Behind the digits of a fraction there is a point or an exponent. -/
theorem decimalFraction_toDigits : decimalFraction (Nat.toDigits 10 n ++ '\n' :: rest) = none := by
  have line := digitsLine_toDigits n rest
  have noPoint : opt (do char '.'; digits 10) ('\n' :: rest) = some (none, '\n' :: rest) :=
    opt_of_none (bind_of_none (char_of_ne (by simp)))
  have noExponent : exponent ('\n' :: rest) = none := by
    refine bind_of_none (discard_of_none (satisfy_of_neg ?_))
    rintro c ⟨⟩
    decide
  unfold decimalFraction
  rw [bind_of_some line.sign, bind_of_some (decimalDigits_toDigits n rest), bind_of_some noPoint]
  exact bind_of_none (map_of_none noExponent)

theorem integer_toDigits (h : n ≤ maxInteger) :
    integer (Nat.toDigits 10 n ++ '\n' :: rest) = some ((n : Int), '\n' :: rest) := by
  have line := digitsLine_toDigits n rest
  have noMark {x : Char} (other : isDigitIn 10 x = false) (feed : x ≠ '\n') (base : Nat) :
      basedInteger ['0', x] base (Nat.toDigits 10 n ++ '\n' :: rest) = none :=
    bind_of_none (line.mark other feed)
  refine (orElse_of_none (noMark (by decide) (by decide) 16)).trans ?_
  refine (orElse_of_none (noMark (by decide) (by decide) 8)).trans ?_
  refine (orElse_of_none (noMark (by decide) (by decide) 2)).trans ?_
  have value : integerValue? false (ofDigits 10 (Nat.toDigits 10 n)) = some n := by
    rw [ofDigits_toDigits]
    exact if_pos h
  unfold decimalInteger
  rw [bind_of_some line.sign, bind_of_some (decimalDigits_toDigits n rest), value]
  rfl

/-- A numeral that stands at the end of a line is read as its number. -/
theorem scalar_toDigits (h : n ≤ maxInteger) :
    scalar (Nat.toDigits 10 n ++ '\n' :: rest) = some (.integer n, '\n' :: rest) := by
  have line := digitsLine_toDigits n rest
  have noBoolean : boolean (Nat.toDigits 10 n ++ '\n' :: rest) = none :=
    (orElse_of_none (bind_of_none (line.word (by decide) (by decide)))).trans
      (bind_of_none (line.word (by decide) (by decide)))
  have noSpecial : specialFloat (Nat.toDigits 10 n ++ '\n' :: rest) = none := by
    unfold specialFloat
    rw [bind_of_some (discard_of_some line.sign)]
    exact bind_of_none ((orElse_of_none (line.word (by decide) (by decide))).trans
      (line.word (by decide) (by decide)))
  refine (orElse_of_none noBoolean).trans ?_
  refine (orElse_of_none line.dateTime).trans ?_
  refine (orElse_of_none (decimalFraction_toDigits n rest)).trans ?_
  refine (orElse_of_none noSpecial).trans ?_
  exact map_of_some (integer_toDigits n rest h)

end Scalar
end Toml
end VerifiedBoot
