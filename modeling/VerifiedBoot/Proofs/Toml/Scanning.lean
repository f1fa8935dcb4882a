/-
Scanners at work. A scanner is told by the text in front of it: what it takes off, and what is left. A
repetition takes one part after another up to the text on which its part fails, and as each part takes
a character at least, the length of the text is enough of them.
-/
import VerifiedBoot.Toml.Scan
import Mathlib.Tactic

namespace VerifiedBoot
namespace Toml
namespace Scan

variable {α β : Type} {item : Scan α} {a : α} {cs rest : List Char}

/-! ## Steps -/

theorem bind_of_some {next : α → Scan β} (h : item cs = some (a, rest)) :
    (item >>= next) cs = next a rest := by
  show (item cs).bind _ = _
  rw [h]
  rfl

theorem bind_of_none {next : α → Scan β} (h : item cs = none) : (item >>= next) cs = none := by
  show (item cs).bind _ = _
  rw [h]
  rfl

theorem map_of_some {f : α → β} (h : item cs = some (a, rest)) : (f <$> item) cs = some (f a, rest) := by
  show (item cs).bind _ = _
  rw [h]
  rfl

theorem map_of_none {f : α → β} (h : item cs = none) : (f <$> item) cs = none := by
  show (item cs).bind _ = _
  rw [h]
  rfl

theorem discard_of_some (h : item cs = some (a, rest)) : (discard item) cs = some ((), rest) :=
  map_of_some h

theorem discard_of_none (h : item cs = none) : (discard item) cs = none := map_of_none h

theorem orElse_of_some {other : Scan α} (h : item cs = some (a, rest)) :
    (item <|> other) cs = some (a, rest) := by
  show (item cs).orElse _ = _
  rw [h]
  rfl

theorem orElse_of_none {other : Scan α} (h : item cs = none) : (item <|> other) cs = other cs := by
  show (item cs).orElse _ = _
  rw [h]
  rfl

theorem opt_of_some (h : item cs = some (a, rest)) : opt item cs = some (some a, rest) :=
  orElse_of_some (map_of_some h)

theorem opt_of_none (h : item cs = none) : opt item cs = some (none, cs) :=
  orElse_of_none (map_of_none h)

/-! ## Characters -/

theorem satisfy_of_pos {p : Char → Bool} {c : Char} (h : p c = true) :
    satisfy p (c :: cs) = some (c, cs) := if_pos h

/-- No character with the property is next. -/
theorem satisfy_of_neg {p : Char → Bool} (h : ∀ c, cs.head? = some c → p c = false) :
    satisfy p cs = none := by
  cases cs with
  | nil => rfl
  | cons c cs => exact if_neg (by rw [h c rfl]; decide)

theorem char_self (c : Char) : char c (c :: cs) = some ((), cs) :=
  discard_of_some (satisfy_of_pos (beq_self_eq_true c))

theorem char_of_ne {c : Char} (h : cs.head? ≠ some c) : char c cs = none :=
  discard_of_none (satisfy_of_neg fun _ hd => beq_false_of_ne fun same => h (same ▸ hd))

theorem word_append (w cs : List Char) : word w (w ++ cs) = some ((), cs) := by
  unfold word
  rw [if_pos (List.isPrefixOf_iff_prefix.2 (List.prefix_append w cs)), List.drop_left]

theorem word_of_not_prefix {w : List Char} (h : ¬ w <+: cs) : word w cs = none :=
  if_neg fun isPrefix => h (List.isPrefixOf_iff_prefix.1 isPrefix)

theorem word_of_ne {c : Char} {w : List Char} (h : cs.head? ≠ some c) : word (c :: w) cs = none := by
  refine word_of_not_prefix ?_
  rintro ⟨t, rfl⟩
  exact h rfl

theorem takeWhile_append {p : Char → Bool} {taken : List Char} (all : ∀ c ∈ taken, p c = true)
    (stop : ∀ c, rest.head? = some c → p c = false) :
    takeWhile p (taken ++ rest) = some (taken, rest) := by
  have none_more : rest.takeWhile p = [] ∧ rest.dropWhile p = rest := by
    cases rest with
    | nil => exact ⟨rfl, rfl⟩
    | cons c rest => simp [List.takeWhile, List.dropWhile, stop c rfl]
  unfold takeWhile
  rw [List.takeWhile_append_of_pos all, List.dropWhile_append_of_pos all, none_more.1, none_more.2,
    List.append_nil]

theorem exactly_append {p : Char → Bool} {n : Nat} {taken : List Char} (length : taken.length = n)
    (all : taken.all p = true) : exactly n p (taken ++ rest) = some (taken, rest) := by
  unfold exactly
  rw [List.take_left' length, List.drop_left' length, if_pos ⟨length, all⟩]

theorem blanks_of_ne (h : ∀ c, cs.head? = some c → isBlank c = false) : blanks cs = some ((), cs) := by
  have none : takeWhile isBlank ([] ++ cs) = some ([], cs) := takeWhile_append (by simp) h
  exact discard_of_some none

theorem blanks_space (h : ∀ c, cs.head? = some c → isBlank c = false) :
    blanks (' ' :: cs) = some ((), cs) := by
  have one : takeWhile isBlank ([' '] ++ cs) = some ([' '], cs) :=
    takeWhile_append (List.forall_mem_singleton.2 rfl) h
  exact discard_of_some one

theorem newline_of_ne (feed : cs.head? ≠ some '\n') (carriage : cs.head? ≠ some '\r') :
    newline cs = none :=
  (orElse_of_none (char_of_ne feed)).trans (word_of_ne carriage)

theorem newline_self : newline ('\n' :: cs) = some ((), cs) := orElse_of_some (char_self '\n')

/-- Right before the end of a line there is nothing else on it. -/
theorem lineEnd_newline : lineEnd ('\n' :: cs) = some ((), cs) := by
  have noBlank : blanks ('\n' :: cs) = some ((), '\n' :: cs) := blanks_of_ne (by rintro c ⟨⟩; rfl)
  have noComment : discard (opt comment) ('\n' :: cs) = some ((), '\n' :: cs) :=
    discard_of_some (opt_of_none (bind_of_none (char_of_ne (by simp))))
  unfold lineEnd
  rw [bind_of_some noBlank, bind_of_some noComment]
  exact orElse_of_some newline_self

/-! ## Repetition -/

/-- Part after part is taken off a text, up to the text on which the part fails. -/
inductive Repeats (item : Scan α) : List Char → List α → List Char → Prop where
  | stop {cs : List Char} (fails : item cs = none) : Repeats item cs [] cs
  | step {cs cs' rest : List Char} {a : α} {as : List α} (takes : item cs = some (a, cs'))
      (shorter : cs'.length < cs.length) (more : Repeats item cs' as rest) :
      Repeats item cs (a :: as) rest

namespace Repeats

variable {as : List α}

/-- A part that is written in front. -/
theorem cons {w : List Char} (nonempty : w ≠ []) (takes : item (w ++ cs) = some (a, cs))
    (more : Repeats item cs as rest) : Repeats item (w ++ cs) (a :: as) rest := by
  refine .step takes ?_ more
  have := List.length_pos_iff.2 nonempty
  rw [List.length_append]
  omega

theorem manyUpTo (h : Repeats item cs as rest) {n : Nat} (hn : cs.length ≤ n) :
    Scan.manyUpTo item n cs = some (as, rest) := by
  induction h generalizing n with
  | stop fails =>
    cases n with
    | zero => rfl
    | succ n => exact orElse_of_none (bind_of_none fails)
  | step takes shorter more ih =>
    cases n with
    | zero => omega
    | succ n =>
      refine orElse_of_some ?_
      rw [bind_of_some takes, bind_of_some (ih (by omega))]
      rfl

theorem many (h : Repeats item cs as rest) : Scan.many item cs = some (as, rest) := h.manyUpTo le_rfl

end Repeats

/-- A part that no separator follows. -/
theorem separated_one {separator : Scan Unit} (takes : item cs = some (a, rest))
    (alone : separator rest = none) : separated item separator cs = some ([a], rest) := by
  refine orElse_of_some ?_
  rw [bind_of_some takes, bind_of_some (Repeats.stop (bind_of_none alone)).many]
  rfl

end Scan
end Toml
end VerifiedBoot
