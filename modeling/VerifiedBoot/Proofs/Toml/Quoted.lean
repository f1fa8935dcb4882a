/-
Quoted text reads back. On one line each character is written as a piece that is read as just this
character. On several lines a quote may stand for itself, at most two of them in a row: those in the text
are told from the three that close it by what follows, and those right before the closing ones are read
with them. So whichever form the text is written in, all of it is read, and nothing of what follows.
-/
import VerifiedBoot.Proofs.Toml.Scanning
import VerifiedBoot.Toml.Quoted

namespace VerifiedBoot
namespace Toml
namespace Quoted

open Scan

variable {α : Type}

/-! ## Characters -/

theorem isPlain_iff {c : Char} : isPlain c = true ↔ isControl c = false ∧ c ≠ '\n' := by
  have feed : c = '\n' ↔ c.toNat = 10 := by
    rw [← Char.toNat_inj]
    rfl
  have tab : c = '\t' ↔ c.toNat = 9 := by
    rw [← Char.toNat_inj]
    rfl
  simp only [isPlain, isControl, Bool.or_eq_true, Bool.and_eq_true, beq_iff_eq, decide_eq_true_eq,
    bne_iff_ne, Bool.or_eq_false_iff, Bool.and_eq_false_imp, ne_eq, feed, tab, bne_eq_false_iff_eq,
    beq_eq_false_iff_ne]
  omega

/-- The digits in the escape of a control character. -/
def controlDigits (n : Nat) : List Char :=
  ['0', '0', Nat.digitChar (n / 16), (Nat.digitChar (n % 16)).toUpper]

theorem ofDigits_controlDigits : ∀ n : Fin 128, (controlDigits n).all (Text.isDigitIn 16) = true ∧
    Text.ofDigits 16 (controlDigits n) = n := by
  decide +kernel

/-- The four digits of a control character are read as that character. -/
theorem codePoint_control {c : Char} (h : c.toNat < 0x20 ∨ c.toNat = 0x7f) (rest : List Char) :
    codePoint 4 (controlDigits c.toNat ++ rest) = some (c, rest) := by
  obtain ⟨all, value⟩ := ofDigits_controlDigits ⟨c.toNat, by omega⟩
  have four : exactly 4 (Text.isDigitIn 16) (controlDigits c.toNat ++ rest)
      = some (controlDigits c.toNat, rest) :=
    exactly_append rfl all
  have valid : c.toNat.isValidChar := c.valid
  unfold codePoint
  refine (bind_of_some four).trans ?_
  simp only [value, if_pos valid, Char.ofNat_toNat]
  rfl

/-- An escaped character is told by the character after the backslash. -/
theorem escaped_of {e c : Char} {after rest : List Char}
    (h : (match e with
      | 'b' => return '\x08'
      | 'f' => return '\x0c'
      | 'n' => return '\n'
      | 'r' => return '\r'
      | 't' => return '\t'
      | '\\' => return '\\'
      | '"' => return '"'
      | 'u' => codePoint 4
      | 'U' => codePoint 8
      | _ => failure : Scan Char) after = some (c, rest)) :
    escaped ('\\' :: e :: after) = some (c, rest) := by
  unfold escaped
  rw [bind_of_some (char_self _), bind_of_some (satisfy_of_pos rfl)]
  exact h

theorem basicChar_escaped {c : Char} {cs rest : List Char}
    (h : escaped ('\\' :: cs) = some (c, rest)) : basicChar ('\\' :: cs) = some (c, rest) := by
  refine (orElse_of_none (satisfy_of_neg ?_)).trans h
  rintro c ⟨⟩
  decide

theorem basicChar_plain {c : Char} (plain : isPlain c = true) (quote : c ≠ '"') (backslash : c ≠ '\\')
    (rest : List Char) : basicChar (c :: rest) = some (c, rest) :=
  orElse_of_some (satisfy_of_pos (by simp [plain, quote, backslash]))

/-- Each character between double quotes is read back from its piece. -/
theorem basicChar_escapeChar {c : Char} (quote : c ≠ '"') (feed : c ≠ '\n') (rest : List Char) :
    basicChar (escapeChar c ++ rest) = some (c, rest) := by
  unfold escapeChar
  split_ifs with backslash tab carriage backspace formFeed control
  · subst backslash
    exact basicChar_escaped (escaped_of rfl)
  · subst tab
    exact basicChar_escaped (escaped_of rfl)
  · subst carriage
    exact basicChar_escaped (escaped_of rfl)
  · subst backspace
    exact basicChar_escaped (escaped_of rfl)
  · subst formFeed
    exact basicChar_escaped (escaped_of rfl)
  · exact basicChar_escaped (escaped_of (codePoint_control control rest))
  · refine basicChar_plain ?_ quote backslash rest
    simp only [isPlain, Bool.or_eq_true, Bool.and_eq_true, decide_eq_true_eq, bne_iff_ne]
    omega

/-- A piece starts with a backslash or is the character itself. -/
theorem exists_escapeChar_cons (c : Char) :
    ∃ d ds, escapeChar c = d :: ds ∧ (d = '\\' ∨ d = c ∧ c ≠ '\r') := by
  unfold escapeChar
  split_ifs with backslash tab carriage
  all_goals first
    | exact ⟨'\\', _, rfl, .inl rfl⟩
    | exact ⟨c, [], rfl, .inr ⟨rfl, carriage⟩⟩

theorem escapeChar_ne_nil (c : Char) : escapeChar c ≠ [] := by
  obtain ⟨d, ds, written, -⟩ := exists_escapeChar_cons c
  exact written ▸ List.cons_ne_nil d ds

theorem basicChar_quote (rest : List Char) : basicChar ('\\' :: '"' :: rest) = some ('"', rest) :=
  basicChar_escaped (escaped_of rfl)

theorem basicChar_feed (rest : List Char) : basicChar ('\\' :: 'n' :: rest) = some ('\n', rest) :=
  basicChar_escaped (escaped_of rfl)

/-- No character is read at a quote that is not escaped. -/
theorem basicChar_at_quote (rest : List Char) : basicChar ('"' :: rest) = none := by
  have plain : satisfy (fun c => isPlain c && c != '"' && c != '\\') ('"' :: rest) = none := by
    refine satisfy_of_neg ?_
    rintro c ⟨⟩
    decide
  have noEscape : escaped ('"' :: rest) = none := bind_of_none (char_of_ne (by simp))
  exact (orElse_of_none plain).trans noEscape

/-! ## On one line -/

theorem repeats_escapeLine (text rest : List Char) :
    Repeats basicChar (escapeLine text ++ '"' :: rest) text ('"' :: rest) := by
  induction text with
  | nil => exact .stop (basicChar_at_quote rest)
  | cons c text ih =>
    rw [escapeLine, List.flatMap_cons, List.append_assoc, ← escapeLine]
    split_ifs with quote feed
    · subst quote
      exact .cons (List.cons_ne_nil _ _) (basicChar_quote _) ih
    · subst feed
      exact .cons (List.cons_ne_nil _ _) (basicChar_feed _) ih
    · exact .cons (escapeChar_ne_nil c) (basicChar_escapeChar quote feed _) ih

theorem escapeLine_head (text : List Char) : (escapeLine text).head? ≠ some '"' := by
  cases text with
  | nil => exact nofun
  | cons c text =>
    rw [escapeLine, List.flatMap_cons]
    split_ifs with quote feed
    · simp
    · simp
    · obtain ⟨d, ds, written, other⟩ := exists_escapeChar_cons c
      rw [written]
      rcases other with rfl | ⟨rfl, -⟩
      · simp
      · simpa using quote

theorem basic_escapeLine (text rest : List Char) :
    basic ('"' :: (escapeLine text ++ '"' :: rest)) = some (text, rest) := by
  unfold basic
  rw [bind_of_some (char_self _), bind_of_some (repeats_escapeLine text rest).many,
    bind_of_some (char_self _)]
  rfl

theorem literal_plain {text : List Char} (plain : ∀ c ∈ text, isPlain c = true) (quote : '\'' ∉ text)
    (rest : List Char) : literal ('\'' :: (text ++ '\'' :: rest)) = some (text, rest) := by
  have taken : takeWhile (fun c => isPlain c && c != '\'') (text ++ '\'' :: rest)
      = some (text, '\'' :: rest) := by
    refine takeWhile_append (fun c hc => ?_) (by rintro c ⟨⟩; decide)
    have other : c ≠ '\'' := fun same => quote (same ▸ hc)
    simp [plain c hc, other]
  unfold literal
  rw [bind_of_some (char_self _), bind_of_some taken, bind_of_some (char_self _)]
  rfl

/-! ## On several lines -/

/-- How a text is written between three quotes and three quotes, after a number of quotes without an
escape: a quote stands for itself if it is not the third in a row, and every other piece is read by
itself. -/
inductive Lines (quote : Char) (part : Scan α) (chars : α → List Char) :
    Nat → List Char → List Char → Prop where
  | nil {run : Nat} : Lines quote part chars run [] []
  | quote {run : Nat} {written text : List Char} (lone : run < 2)
      (more : Lines quote part chars (run + 1) written text) :
      Lines quote part chars run (quote :: written) (quote :: text)
  | piece {run : Nat} {c : Char} {w written text : List Char} {a : α} (other : c ≠ quote)
      (takes : ∀ rest, part (c :: w ++ rest) = some (a, rest))
      (more : Lines quote part chars 0 written text) :
      Lines quote part chars run (c :: w ++ written) (chars a ++ text)

/-- A part of text on several lines, at a quote: it takes one that no two others follow, and nothing
where there are three. -/
structure TakesLoneQuotes (quote : Char) (part : Scan α) (chars : α → List Char) : Prop where
  three (rest : List Char) : part (quote :: quote :: quote :: rest) = none
  lone {cs : List Char} (h : ¬ [quote, quote] <+: cs) :
    ∃ a, part (quote :: cs) = some (a, cs) ∧ chars a = [quote]

namespace Lines

variable {quote : Char} {part : Scan α} {chars : α → List Char} {run : Nat} {written text : List Char}

/-- After a quote, two more in front of the closing ones mean that nothing but quotes is left. -/
theorem eq_replicate (h : Lines quote part chars run written text) (pos : 0 < run) (le : run ≤ 2)
    {rest : List Char} (quotes : [quote, quote] <+: written ++ quote :: quote :: quote :: rest) :
    ∃ k, k + run ≤ 2 ∧ written = List.replicate k quote ∧ text = List.replicate k quote := by
  cases h with
  | nil => exact ⟨0, by omega, rfl, rfl⟩
  | piece other takes more =>
    exact absurd (List.cons_prefix_cons.1 quotes).1.symm other
  | @quote _ written text lone more =>
    have second := (List.cons_prefix_cons.1 quotes).2
    cases more with
    | nil => exact ⟨1, by omega, rfl, rfl⟩
    | quote lone' => omega
    | piece other => exact absurd (List.cons_prefix_cons.1 second).1.symm other

/-- The text is read up to the quotes that close it and those, two at most, that stand right before. -/
theorem repeats (h : Lines quote part chars run written text) (le : run ≤ 2)
    (takes : TakesLoneQuotes quote part chars) (rest : List Char) :
    ∃ as k, k ≤ 2 ∧ as.flatMap chars ++ List.replicate k quote = text ∧
      Repeats part (written ++ quote :: quote :: quote :: rest) as
        (List.replicate k quote ++ quote :: quote :: quote :: rest) := by
  induction h with
  | nil => exact ⟨[], 0, Nat.zero_le 2, rfl, .stop (takes.three rest)⟩
  | @piece run c w written text a other reads more ih =>
    obtain ⟨as, k, hk, rfl, parts⟩ := ih (Nat.zero_le 2)
    refine ⟨a :: as, k, hk, by rw [List.flatMap_cons, List.append_assoc], ?_⟩
    rw [List.append_assoc]
    exact parts.cons (List.cons_ne_nil c w) (reads _)
  | @quote run written text lone more ih =>
    by_cases closing : [quote, quote] <+: written ++ quote :: quote :: quote :: rest
    · -- this quote and all that follow it belong to the ones before the closing ones
      obtain ⟨k, hk, rfl, rfl⟩ := more.eq_replicate (Nat.succ_pos run) (by omega) closing
      refine ⟨[], k + 1, by omega, rfl, .stop ?_⟩
      obtain ⟨t, ht⟩ := closing
      rw [List.cons_append, ← ht]
      exact takes.three t
    · obtain ⟨as, k, hk, rfl, parts⟩ := ih (by omega)
      obtain ⟨a, reads, one⟩ := takes.lone closing
      refine ⟨a :: as, k, hk, by rw [List.flatMap_cons, one]; rfl, ?_⟩
      exact parts.cons (w := [quote]) (List.cons_ne_nil _ _) reads

end Lines

/-- The closing quotes are taken with the quotes before them. -/
theorem closing_replicate {quote : Char} {k : Nat} (hk : k ≤ 2) {rest : List Char}
    (stop : rest.head? ≠ some quote) :
    closing quote (List.replicate k quote ++ quote :: quote :: quote :: rest)
      = some (List.replicate k quote, rest) := by
  have three (cs : List Char) : word [quote, quote, quote] (quote :: quote :: quote :: cs)
      = some ((), cs) := word_append [quote, quote, quote] cs
  have more (cs : List Char) : opt (char quote) (quote :: cs) = some (some (), cs) :=
    opt_of_some (char_self quote)
  have noMore : opt (char quote) rest = some (none, rest) := opt_of_none (char_of_ne stop)
  unfold closing
  interval_cases k
  · refine (bind_of_some (three rest)).trans ?_
    rw [bind_of_some noMore]
    rfl
  · refine (bind_of_some (three (quote :: rest))).trans ?_
    rw [bind_of_some (more rest)]
    refine (bind_of_some noMore).trans ?_
    rfl
  · refine (bind_of_some (three (quote :: quote :: rest))).trans ?_
    rw [bind_of_some (more (quote :: rest))]
    refine (bind_of_some (more rest)).trans ?_
    rfl

theorem loneQuote_three (quote : Char) (rest : List Char) :
    loneQuote quote (quote :: quote :: quote :: rest) = none :=
  if_pos (by simp [List.isPrefixOf])

theorem loneQuote_self {quote : Char} {cs : List Char} (h : ¬ [quote, quote] <+: cs) :
    loneQuote quote (quote :: cs) = some (quote, cs) := by
  have fewer : ¬ [quote, quote, quote].isPrefixOf (quote :: cs) = true := fun three =>
    h (List.cons_prefix_cons.1 (List.isPrefixOf_iff_prefix.1 three)).2
  exact (if_neg fewer).trans (satisfy_of_pos (beq_self_eq_true quote))

theorem innerNewline_of_ne {cs : List Char} (feed : cs.head? ≠ some '\n')
    (carriage : cs.head? ≠ some '\r') : innerNewline cs = none :=
  bind_of_none (newline_of_ne feed carriage)

theorem innerNewline_self (cs : List Char) : innerNewline ('\n' :: cs) = some ('\n', cs) :=
  bind_of_some newline_self

/-- The line feed after the opening quotes is passed over, if there is one. -/
theorem opening_openingLine {text body : List Char} (h : '\n' ∉ text → newline body = none) :
    discard (opt newline) (openingLine text ++ body) = some ((), body) := by
  unfold openingLine
  split_ifs with feed
  · exact discard_of_some (opt_of_some newline_self)
  · exact discard_of_some (opt_of_none (h (by simpa using feed)))

/-! ## Between double quotes on several lines -/

theorem joinedLine_of_ne {cs : List Char} (h : cs.head? ≠ some '\\') : joinedLine cs = none :=
  bind_of_none (char_of_ne h)

/-- A line is joined to the next one only where blanks and a line end follow the backslash. -/
theorem joinedLine_escaped {e : Char} (blank : isBlank e = false) (feed : e ≠ '\n')
    (carriage : e ≠ '\r') (cs : List Char) : joinedLine ('\\' :: e :: cs) = none := by
  have noBlank : blanks (e :: cs) = some ((), e :: cs) :=
    blanks_of_ne (by rintro c ⟨⟩; exact blank)
  unfold joinedLine
  rw [bind_of_some (char_self _), bind_of_some noBlank]
  exact bind_of_none (newline_of_ne (by simpa using feed) (by simpa using carriage))

theorem joinedLine_escapeChar (c : Char) (rest : List Char) :
    joinedLine (escapeChar c ++ rest) = none := by
  unfold escapeChar
  split_ifs with backslash
  all_goals first
    | exact joinedLine_escaped (by decide) (by decide) (by decide) _
    | exact joinedLine_of_ne (by simpa using backslash)

theorem basicPart_of_char {c : Char} {cs rest : List Char} (joined : joinedLine cs = none)
    (h : basicChar cs = some (c, rest)) : basicPart cs = some ([c], rest) :=
  (orElse_of_none (bind_of_none joined)).trans (bind_of_some (orElse_of_some h))

/-- Where no character stands, a part is a line end or a quote. -/
theorem basicPart_of_noChar {cs : List Char} (joined : joinedLine cs = none)
    (h : basicChar cs = none) :
    basicPart cs = ((fun c => [c]) <$> (innerNewline <|> loneQuote '"')) cs := by
  refine (orElse_of_none (bind_of_none joined)).trans ?_
  show ((basicChar <|> (innerNewline <|> loneQuote '"')) cs).bind _ = _
  rw [orElse_of_none h]
  rfl

theorem basicPart_feed (rest : List Char) : basicPart ('\n' :: rest) = some (['\n'], rest) := by
  have noChar : basicChar ('\n' :: rest) = none := by
    refine (orElse_of_none (satisfy_of_neg ?_)).trans (bind_of_none (char_of_ne (by simp)))
    rintro c ⟨⟩
    decide
  rw [basicPart_of_noChar (joinedLine_of_ne (by simp)) noChar]
  exact map_of_some (orElse_of_some (innerNewline_self rest))

theorem basicPart_at_quote (cs : List Char) :
    basicPart ('"' :: cs) = ((fun c => [c]) <$> loneQuote '"') ('"' :: cs) := by
  rw [basicPart_of_noChar (joinedLine_of_ne (by simp)) (basicChar_at_quote cs)]
  show ((innerNewline <|> loneQuote '"') ('"' :: cs)).bind _ = _
  rw [orElse_of_none (innerNewline_of_ne (by simp) (by simp))]
  rfl

theorem takesLoneQuotes_basicPart : TakesLoneQuotes '"' basicPart id where
  three rest := (basicPart_at_quote _).trans (map_of_none (loneQuote_three '"' rest))
  lone h := ⟨['"'], (basicPart_at_quote _).trans (map_of_some (loneQuote_self h)), rfl⟩

theorem lines_escapeLines (run : Nat) (text : List Char) :
    Lines '"' basicPart id run (escapeLines run text) text := by
  induction text generalizing run with
  | nil => exact .nil
  | cons c text ih =>
    unfold escapeLines
    split_ifs with quote lone feed
    · subst quote
      exact .quote lone (ih (run + 1))
    · subst quote
      refine .piece (c := '\\') (w := ['"']) (a := ['"']) (by decide) (fun rest => ?_) (ih 0)
      exact basicPart_of_char (joinedLine_escaped (by decide) (by decide) (by decide) rest)
        (basicChar_quote rest)
    · subst feed
      exact .piece (w := []) (a := ['\n']) (by decide) basicPart_feed (ih 0)
    · obtain ⟨d, ds, written, start⟩ := exists_escapeChar_cons c
      have other : d ≠ '"' := by
        rcases start with rfl | ⟨rfl, -⟩
        · decide
        · exact quote
      rw [written]
      refine .piece (a := [c]) other (fun rest => ?_) (ih 0)
      rw [← written]
      exact basicPart_of_char (joinedLine_escapeChar c rest) (basicChar_escapeChar quote feed rest)

theorem newline_escapeLines {text : List Char} (h : '\n' ∉ text) (rest : List Char) :
    newline (escapeLines 0 text ++ '"' :: rest) = none := by
  cases text with
  | nil => exact newline_of_ne (by simp [escapeLines]) (by simp [escapeLines])
  | cons c text =>
    have feed : c ≠ '\n' := fun same => h (same ▸ List.mem_cons_self)
    obtain ⟨d, ds, written, start⟩ := exists_escapeChar_cons c
    rw [escapeLines, if_pos (Nat.zero_lt_two), if_neg feed, written]
    split_ifs
    · exact newline_of_ne (by simp) (by simp)
    · rcases start with rfl | ⟨rfl, carriage⟩
      · exact newline_of_ne (by simp) (by simp)
      · exact newline_of_ne (by simpa using feed) (by simpa using carriage)

theorem basicLines_escapeLines {text rest : List Char} (stop : rest.head? ≠ some '"') :
    basicLines ('"' :: '"' :: '"' :: (openingLine text ++ (escapeLines 0 text
      ++ '"' :: '"' :: '"' :: rest))) = some (text, rest) := by
  obtain ⟨parts, k, hk, whole, taken⟩ :=
    (lines_escapeLines 0 text).repeats (Nat.zero_le 2) takesLoneQuotes_basicPart rest
  rw [List.flatMap_id] at whole
  unfold basicLines
  refine (bind_of_some (word_append ['"', '"', '"'] _)).trans ?_
  refine (bind_of_some (opening_openingLine fun h => newline_escapeLines h _)).trans ?_
  rw [bind_of_some taken.many, bind_of_some (closing_replicate hk stop), whole]
  rfl

/-! ## Between single quotes on several lines -/

theorem le_longestRunFrom (quote : Char) (best run : Nat) (text : List Char) :
    best ≤ longestRunFrom quote best run text := by
  induction text generalizing best run with
  | nil => exact le_rfl
  | cons c text ih =>
    unfold longestRunFrom
    split_ifs
    · exact (le_max_left best (run + 1)).trans (ih _ _)
    · exact ih best 0

/-- Without a run there is no quote. -/
theorem not_mem_of_longestRun {quote : Char} {text : List Char} (h : longestRun quote text = 0) :
    quote ∉ text := by
  have positive : ∀ (best run : Nat), quote ∈ text → 0 < longestRunFrom quote best run text := by
    clear h
    induction text with
    | nil => nofun
    | cons c text ih =>
      intro best run mem
      unfold longestRunFrom
      split_ifs with same
      · exact (lt_max_of_lt_right (Nat.succ_pos run)).trans_le (le_longestRunFrom quote _ _ text)
      · exact ih best 0 ((List.mem_cons.1 mem).resolve_left fun h => same h.symm)
  exact fun mem => absurd h (positive 0 0 mem).ne'

theorem literalPart_at_quote (cs : List Char) :
    literalPart ('\'' :: cs) = loneQuote '\'' ('\'' :: cs) := by
  refine (orElse_of_none (satisfy_of_neg ?_)).trans
    (orElse_of_none (innerNewline_of_ne (by simp) (by simp)))
  rintro c ⟨⟩
  decide

theorem takesLoneQuotes_literalPart : TakesLoneQuotes '\'' literalPart fun c => [c] where
  three rest := (literalPart_at_quote _).trans (loneQuote_three '\'' rest)
  lone h := ⟨'\'', (literalPart_at_quote _).trans (loneQuote_self h), rfl⟩

/-- Every character but the quote stands for itself, if it is not a control character. -/
theorem literalPart_self {c : Char} (control : isControl c = false) (quote : c ≠ '\'')
    (rest : List Char) : literalPart (c :: rest) = some (c, rest) := by
  by_cases feed : c = '\n'
  · subst feed
    refine (orElse_of_none (satisfy_of_neg ?_)).trans (orElse_of_some (innerNewline_self rest))
    rintro c ⟨⟩
    decide
  · exact orElse_of_some (satisfy_of_pos (by simp [isPlain_iff.2 ⟨control, feed⟩, quote]))

/-- Text without long runs of quotes is written as it is. -/
theorem lines_of_longestRun {best run : Nat} {text : List Char} (control : ∀ c ∈ text, isControl c = false)
    (h : longestRunFrom '\'' best run text ≤ 2) :
    Lines '\'' literalPart (fun c => [c]) run text text := by
  induction text generalizing best run with
  | nil => exact .nil
  | cons c text ih =>
    have control' := fun d hd => control d (List.mem_cons_of_mem c hd)
    unfold longestRunFrom at h
    split_ifs at h with quote
    · subst quote
      have longest := (le_max_right best (run + 1)).trans (le_longestRunFrom '\'' _ (run + 1) text)
      exact .quote (by omega) (ih control' h)
    · exact .piece (w := []) quote (literalPart_self (control c List.mem_cons_self) quote)
        (ih control' h)

theorem literalLines_of_longestRun {text rest : List Char} (control : ∀ c ∈ text, isControl c = false)
    (h : longestRun '\'' text ≤ 2) (stop : rest.head? ≠ some '\'') :
    literalLines ('\'' :: '\'' :: '\'' :: (openingLine text ++ (text
      ++ '\'' :: '\'' :: '\'' :: rest))) = some (text, rest) := by
  obtain ⟨parts, k, hk, whole, taken⟩ :=
    (lines_of_longestRun control h).repeats (Nat.zero_le 2) takesLoneQuotes_literalPart rest
  rw [List.flatMap_singleton'] at whole
  have start (feed : '\n' ∉ text) : newline (text ++ '\'' :: '\'' :: '\'' :: rest) = none := by
    cases text with
    | nil => exact newline_of_ne (by simp) (by simp)
    | cons c text =>
      have noFeed : c ≠ '\n' := fun same => feed (same ▸ List.mem_cons_self)
      have noCarriage : c ≠ '\r' := fun same =>
        absurd (control c List.mem_cons_self) (by rw [same]; decide)
      exact newline_of_ne (by simpa using noFeed) (by simpa using noCarriage)
  unfold literalLines
  refine (bind_of_some (word_append ['\'', '\'', '\''] _)).trans ?_
  refine (bind_of_some (opening_openingLine start)).trans ?_
  rw [bind_of_some taken.many, bind_of_some (closing_replicate hk stop), whole]
  rfl

/-! ## All forms -/

/-- What text is like that is written between single quotes on one line. -/
theorem of_formFor_literal {text : List Char} (h : formFor text = .literal) :
    (∀ c ∈ text, isControl c = false) ∧ '\n' ∉ text ∧ longestRun '\'' text = 0 := by
  unfold formFor at h
  simp only at h
  split_ifs at h with basic literal
  simp only [Bool.and_eq_true, Bool.not_eq_true', List.any_eq_false, beq_iff_eq] at literal
  obtain ⟨⟨control, feed⟩, quotes⟩ := literal
  exact ⟨fun c hc => by simpa using control c hc, by simpa using feed, quotes⟩

/-- What text is like that is written between single quotes on several lines. -/
theorem of_formFor_literalLines {text : List Char} (h : formFor text = .literalLines) :
    (∀ c ∈ text, isControl c = false) ∧ longestRun '\'' text ≤ 2 := by
  unfold formFor at h
  simp only at h
  split_ifs at h with basic literal basicLines literalLines
  simp only [Bool.and_eq_true, Bool.not_eq_true', List.any_eq_false, decide_eq_true_eq] at literalLines
  obtain ⟨control, quotes⟩ := literalLines
  exact ⟨fun c hc => by simpa using control c hc, quotes⟩

/-- Two quotes that something else follows do not open several lines. -/
theorem word_three_of_one {quote : Char} {text rest : List Char} (first : text.head? ≠ some quote)
    (stop : rest.head? ≠ some quote) :
    word [quote, quote, quote] (quote :: (text ++ quote :: rest)) = none := by
  refine word_of_not_prefix fun three => ?_
  have two := (List.cons_prefix_cons.1 three).2
  cases text with
  | nil =>
    obtain ⟨t, ht⟩ := (List.cons_prefix_cons.1 two).2
    exact stop (by rw [← ht]; rfl)
  | cons c text => exact first (by rw [← (List.cons_prefix_cons.1 two).1]; rfl)

theorem basicLines_of_ne {cs : List Char} (h : cs.head? ≠ some '"') : basicLines cs = none :=
  bind_of_none (word_of_ne h)

theorem literalLines_of_ne {cs : List Char} (h : cs.head? ≠ some '\'') : literalLines cs = none :=
  bind_of_none (word_of_ne h)

theorem line_of_ne {cs : List Char} (double : cs.head? ≠ some '"') (single : cs.head? ≠ some '\'') :
    line cs = none :=
  (orElse_of_none (bind_of_none (char_of_ne double))).trans (bind_of_none (char_of_ne single))

/-- Where there is no quote, there is no quoted text. -/
theorem decode_of_ne {cs : List Char} (double : cs.head? ≠ some '"') (single : cs.head? ≠ some '\'') :
    decode cs = none :=
  (orElse_of_none (basicLines_of_ne double)).trans
    ((orElse_of_none (literalLines_of_ne single)).trans (line_of_ne double single))

theorem head_encode (text : List Char) :
    (encode text).head? = some '"' ∨ (encode text).head? = some '\'' := by
  unfold encode
  cases formFor text with
  | basic => exact .inl rfl
  | literal => exact .inr rfl
  | basicLines => exact .inl rfl
  | literalLines => exact .inr rfl

/-- Text is read back from the form in which it is written, if no quote follows. -/
theorem decode_encode (text : List Char) {rest : List Char} (double : rest.head? ≠ some '"')
    (single : rest.head? ≠ some '\'') : decode (encode text ++ rest) = some (text, rest) := by
  cases form : formFor text with
  | basic =>
    have written : encode text ++ rest = '"' :: (escapeLine text ++ '"' :: rest) := by
      simp [encode, form]
    rw [written]
    refine (orElse_of_none (bind_of_none (word_three_of_one (escapeLine_head text) double))).trans ?_
    refine (orElse_of_none (literalLines_of_ne (by simp))).trans ?_
    exact orElse_of_some (basic_escapeLine text rest)
  | literal =>
    obtain ⟨control, feed, quotes⟩ := of_formFor_literal form
    have noQuote := not_mem_of_longestRun quotes
    have written : encode text ++ rest = '\'' :: (text ++ '\'' :: rest) := by
      simp [encode, form]
    have first : text.head? ≠ some '\'' := fun h => noQuote (List.mem_of_head? h)
    have plain : ∀ c ∈ text, isPlain c = true := fun c hc =>
      isPlain_iff.2 ⟨control c hc, fun same => feed (same ▸ hc)⟩
    rw [written]
    refine (orElse_of_none (basicLines_of_ne (by simp))).trans ?_
    refine (orElse_of_none (bind_of_none (word_three_of_one first single))).trans ?_
    refine (orElse_of_none (bind_of_none (char_of_ne (by simp)))).trans ?_
    exact literal_plain plain noQuote rest
  | basicLines =>
    have written : encode text ++ rest = '"' :: '"' :: '"' :: (openingLine text
        ++ (escapeLines 0 text ++ '"' :: '"' :: '"' :: rest)) := by
      simp [encode, form]
    rw [written]
    exact orElse_of_some (basicLines_escapeLines double)
  | literalLines =>
    obtain ⟨control, quotes⟩ := of_formFor_literalLines form
    have written : encode text ++ rest = '\'' :: '\'' :: '\'' :: (openingLine text
        ++ (text ++ '\'' :: '\'' :: '\'' :: rest)) := by
      simp [encode, form]
    rw [written]
    refine (orElse_of_none (basicLines_of_ne (by simp))).trans ?_
    exact orElse_of_some (literalLines_of_longestRun control quotes single)

end Quoted
end Toml
end VerifiedBoot
