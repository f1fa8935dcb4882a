/-
Documents read back. A table that is written is a header and a line for each setting, and each line is
scanned as the statement it was written for. No two tables have one name, and no two settings of a table
one key: so the statements are gathered into just the tables that were written, in their order.
-/
import VerifiedBoot.Proofs.Toml.Numeral
import VerifiedBoot.Proofs.Toml.Quoted
import VerifiedBoot.Toml.Document
import VerifiedBoot.Toml.Render

namespace VerifiedBoot
namespace Toml

open Scan

/-! ## Keys -/

/-- A key that is written without quotes. -/
def IsBare (key : String) : Prop := key.toList ≠ [] ∧ key.toList.all isKeyChar = true

instance (key : String) : Decidable (IsBare key) :=
  inferInstanceAs (Decidable (key.toList ≠ [] ∧ key.toList.all isKeyChar = true))

theorem ne_of_isKeyChar {c d : Char} (h : isKeyChar c = true) (other : isKeyChar d = false) : c ≠ d := by
  rintro rfl
  exact absurd h (by rw [other]; decide)

theorem isBlank_of_isKeyChar {c : Char} (h : isKeyChar c = true) : isBlank c = false := by
  simp [isBlank, ne_of_isKeyChar h (d := ' ') (by decide), ne_of_isKeyChar h (d := '\t') (by decide)]

section Key

variable {key : String} {rest after : List Char}

/-- A bare key starts with one of its characters. -/
theorem IsBare.exists_cons (h : IsBare key) : ∃ c cs, key.toList = c :: cs ∧ isKeyChar c = true := by
  obtain ⟨nonempty, all⟩ := h
  cases written : key.toList with
  | nil => exact absurd written nonempty
  | cons c cs => exact ⟨c, cs, rfl, List.all_eq_true.1 all c (written ▸ List.mem_cons_self)⟩

theorem simpleKey_bare (h : IsBare key) (stop : ∀ c, rest.head? = some c → isKeyChar c = false) :
    simpleKey (key.toList ++ rest) = some (key, rest) := by
  obtain ⟨c, cs, written, first⟩ := h.exists_cons
  have all := List.all_eq_true.1 h.2
  rw [written] at all
  have noQuotes : Quoted.line (c :: (cs ++ rest)) = none :=
    Quoted.line_of_ne (by simpa using ne_of_isKeyChar first (d := '"') (by decide))
      (by simpa using ne_of_isKeyChar first (d := '\'') (by decide))
  have taken : takeWhile isKeyChar (cs ++ rest) = some (cs, rest) :=
    takeWhile_append (fun d hd => all d (List.mem_cons_of_mem c hd)) stop
  have chars : (do return (← satisfy isKeyChar) :: (← takeWhile isKeyChar) : Scan (List Char))
      (c :: (cs ++ rest)) = some (c :: cs, rest) := by
    rw [bind_of_some (satisfy_of_pos first), bind_of_some taken]
    rfl
  rw [written, List.cons_append]
  refine (map_of_some ((orElse_of_none noQuotes).trans chars)).trans ?_
  rw [← written, String.ofList_toList]

/-- A bare key is read as a path of itself, with the blanks after it. -/
theorem keyPath_bare (h : IsBare key) (stop : ∀ c, rest.head? = some c → isKeyChar c = false)
    (skipped : blanks rest = some ((), after)) (dot : after.head? ≠ some '.') :
    keyPath (key.toList ++ rest) = some (⟨[], key⟩, after) := by
  have noBlank : blanks (key.toList ++ rest) = some ((), key.toList ++ rest) := by
    obtain ⟨c, cs, written, first⟩ := h.exists_cons
    rw [written]
    exact blanks_of_ne (by rintro d ⟨⟩; exact isBlank_of_isKeyChar first)
  have part : keyPart (key.toList ++ rest) = some (key, after) := by
    unfold keyPart
    rw [bind_of_some noBlank, bind_of_some (simpleKey_bare h stop), bind_of_some skipped]
    rfl
  exact (bind_of_some (separated_one part (char_of_ne dot))).trans rfl

end Key

/-! ## Values -/

/-- What a setting is read as. -/
def Setting.value : Setting → Value
  | .text s => .string s
  | .number n => .integer n

theorem value_of_plainValue {depth : Nat} {cs rest : List Char} {v : Value}
    (h : plainValue cs = some (v, rest)) : value (depth + 1) cs = some (v, rest) := by
  cases depth with
  | zero => exact h
  | succ depth => exact orElse_of_some h

namespace Setting

variable {s : Setting} {written : List Char}

/-- Only an integer that is too large cannot be written. -/
theorem render?_number_eq_none_iff {n : Nat} :
    (Setting.number n).render? = none ↔ Scalar.maxInteger < n := by
  simp [render?]

theorem render?_number_eq_some_iff {n : Nat} :
    (Setting.number n).render? = some written ↔ n ≤ Scalar.maxInteger ∧ Nat.toDigits 10 n = written := by
  simp [render?]

/-- A setting is read back at the end of a line. -/
theorem plainValue_render (h : s.render? = some written) (rest : List Char) :
    plainValue (written ++ '\n' :: rest) = some (s.value, '\n' :: rest) := by
  cases s with
  | text t =>
    cases h
    refine orElse_of_some ((bind_of_some (Quoted.decode_encode t.toList (by simp) (by simp))).trans ?_)
    rw [String.ofList_toList]
    rfl
  | number n =>
    obtain ⟨range, rfl⟩ := render?_number_eq_some_iff.1 h
    have line := Scalar.digitsLine_toDigits n rest
    have noText := Quoted.decode_of_ne (line.head_ne (by decide) (by decide))
      (line.head_ne (by decide) (by decide))
    exact (orElse_of_none (bind_of_none noText)).trans (Scalar.scalar_toDigits n rest range)

/-- No blank stands in front of a setting but the one that is written there. -/
theorem blanks_render (h : s.render? = some written) (rest : List Char) :
    blanks (' ' :: (written ++ '\n' :: rest)) = some ((), written ++ '\n' :: rest) := by
  refine blanks_space fun c hc => ?_
  cases s with
  | text t =>
    cases h
    rw [List.head?_append] at hc
    rcases Quoted.head_encode t.toList with quote | quote
    · rw [quote] at hc
      cases hc
      rfl
    · rw [quote] at hc
      cases hc
      rfl
  | number n =>
    obtain ⟨-, rfl⟩ := render?_number_eq_some_iff.1 h
    have line := Scalar.digitsLine_toDigits n rest
    have noSpace : c ≠ ' ' := fun same => line.head_ne (by decide) (by decide) (same ▸ hc)
    have noTab : c ≠ '\t' := fun same => line.head_ne (by decide) (by decide) (same ▸ hc)
    simp [isBlank, noSpace, noTab]

end Setting

/-! ## Lines -/

/-- A line of a table. -/
def settingStatement (setting : String × Setting) : Statement :=
  .entry ⟨[], setting.1⟩ setting.2.value

theorem entry_setting {key : String} {s : Setting} {written : List Char} (bare : IsBare key)
    (h : s.render? = some written) (rest : List Char) :
    entry (value nestingLimit) (key.toList ++ ' ' :: '=' :: ' ' :: (written ++ '\n' :: rest))
      = some ((⟨[], key⟩, s.value), '\n' :: rest) := by
  have path : keyPath (key.toList ++ ' ' :: '=' :: ' ' :: (written ++ '\n' :: rest))
      = some (⟨[], key⟩, '=' :: ' ' :: (written ++ '\n' :: rest)) :=
    keyPath_bare bare (by rintro c ⟨⟩; decide) (blanks_space (by rintro c ⟨⟩; decide)) (by simp)
  have read : value nestingLimit (written ++ '\n' :: rest) = some (s.value, '\n' :: rest) :=
    value_of_plainValue (s.plainValue_render h rest)
  unfold entry
  rw [bind_of_some path, bind_of_some (char_self '='), bind_of_some (s.blanks_render h rest),
    bind_of_some read]
  rfl

/-- A line that starts with a character of a bare key holds an entry. -/
theorem content_of_isKeyChar {c : Char} (h : isKeyChar c = true) (cs : List Char) :
    content (c :: cs) = (do
      let (key, value) ← entry (value nestingLimit)
      return .entry key value : Scan Statement) (c :: cs) := by
  have other (d : Char) (hd : isKeyChar d = false) : c ≠ d := ne_of_isKeyChar h hd
  unfold content
  refine (bind_of_some (a := some c) rfl).trans (congrFun ?_ _)
  split
  · next same => cases same
  · next same => exact absurd (Option.some.inj same) (other '#' (by decide))
  · next same => exact absurd (Option.some.inj same) (other '\n' (by decide))
  · next same => exact absurd (Option.some.inj same) (other '\r' (by decide))
  · next same => exact absurd (Option.some.inj same) (other '[' (by decide))
  · rfl

theorem content_setting {key : String} {s : Setting} {written : List Char} (bare : IsBare key)
    (h : s.render? = some written) (rest : List Char) :
    content (key.toList ++ ' ' :: '=' :: ' ' :: (written ++ '\n' :: rest))
      = some (settingStatement (key, s), '\n' :: rest) := by
  have read := entry_setting bare h rest
  obtain ⟨c, cs, chars, first⟩ := bare.exists_cons
  rw [chars, List.cons_append] at read ⊢
  rw [content_of_isKeyChar first, bind_of_some read]
  rfl

theorem content_header {name : String} (bare : IsBare name) (rest : List Char) :
    content ('[' :: (name.toList ++ ']' :: '\n' :: rest)) = some (.header ⟨[], name⟩, '\n' :: rest) := by
  have single : word ['[', '['] ('[' :: (name.toList ++ ']' :: '\n' :: rest)) = none := by
    obtain ⟨c, cs, chars, first⟩ := bare.exists_cons
    rw [chars]
    refine word_of_not_prefix fun double => ?_
    have second := (List.cons_prefix_cons.1 (List.cons_prefix_cons.1 double).2).1
    exact ne_of_isKeyChar first (d := '[') (by decide) second.symm
  have path : keyPath (name.toList ++ ']' :: '\n' :: rest)
      = some (⟨[], name⟩, ']' :: '\n' :: rest) :=
    keyPath_bare bare (by rintro c ⟨⟩; decide) (blanks_of_ne (by rintro c ⟨⟩; decide)) (by simp)
  refine (bind_of_some (a := some '[') rfl).trans ?_
  refine (orElse_of_none (bind_of_none single)).trans ?_
  rw [bind_of_some (char_self '['), bind_of_some path, bind_of_some (char_self ']')]
  rfl

theorem content_blank (rest : List Char) : content ('\n' :: rest) = some (.blank, '\n' :: rest) := rfl

/-- A line is scanned whole that starts with its statement and ends with it. -/
theorem statement_of_content {c : Char} {cs rest : List Char} {s : Statement}
    (start : isBlank c = false) (h : content (c :: cs) = some (s, '\n' :: rest)) :
    statement (c :: cs) = some (s, rest) := by
  have noBlank : blanks (c :: cs) = some ((), c :: cs) := blanks_of_ne (by rintro d ⟨⟩; exact start)
  unfold statement
  refine (bind_of_some (a := some c) rfl).trans ?_
  refine (bind_of_some noBlank).trans ?_
  rw [bind_of_some h, bind_of_some lineEnd_newline]
  rfl

/-! ## Tables -/

namespace SettingTable

/-- A table whose name and keys are bare and whose keys differ. -/
structure IsProper (t : SettingTable) : Prop where
  name : IsBare t.name
  keys : ∀ setting ∈ t.settings, IsBare setting.1
  keysDiffer : (t.settings.map Prod.fst).Nodup

def statements (t : SettingTable) : List Statement :=
  .header ⟨[], t.name⟩ :: t.settings.map settingStatement

/-- The lines of tables with an empty line between two of them. -/
def allStatements : List SettingTable → List Statement
  | [] => []
  | [t] => t.statements
  | t :: rest => t.statements ++ .blank :: allStatements rest

variable {written rest after : List Char} {lines : List Statement}

theorem renderSettings?_cons_eq_some {key : String} {s : Setting} {settings : List (String × Setting)} :
    renderSettings? ((key, s) :: settings) = some written ↔ ∃ x y, s.render? = some x ∧
      renderSettings? settings = some y ∧
      key.toList ++ [' ', '=', ' '] ++ x ++ '\n' :: y = written := by
  simp only [renderSettings?, Option.bind_eq_bind, Option.bind_eq_some_iff, Option.pure_def,
    Option.some.injEq]
  constructor
  · rintro ⟨x, hx, y, hy, rfl⟩
    exact ⟨x, y, hx, hy, rfl⟩
  · rintro ⟨x, y, hx, hy, rfl⟩
    exact ⟨x, hx, y, hy, rfl⟩

theorem renderSettings?_eq_none_iff {settings : List (String × Setting)} :
    renderSettings? settings = none ↔ ∃ setting ∈ settings, setting.2.render? = none := by
  induction settings with
  | nil => simp [renderSettings?]
  | cons setting settings ih =>
    obtain ⟨key, s⟩ := setting
    cases value : s.render? with
    | none => simp [renderSettings?, value]
    | some x =>
      cases tail : renderSettings? settings with
      | none => simpa [renderSettings?, value, tail] using ih
      | some y => simpa [renderSettings?, value, tail] using ih

theorem repeats_settings {settings : List (String × Setting)}
    (bare : ∀ setting ∈ settings, IsBare setting.1) (h : renderSettings? settings = some written)
    (more : Repeats statement rest lines after) :
    Repeats statement (written ++ rest) (settings.map settingStatement ++ lines) after := by
  induction settings generalizing written with
  | nil =>
    cases h
    exact more
  | cons setting settings ih =>
    obtain ⟨key, s⟩ := setting
    obtain ⟨x, y, hx, hy, rfl⟩ := renderSettings?_cons_eq_some.1 h
    have first := bare _ List.mem_cons_self
    have line := content_setting first hx (y ++ rest)
    have read : statement (key.toList ++ ' ' :: '=' :: ' ' :: (x ++ '\n' :: (y ++ rest)))
        = some (settingStatement (key, s), y ++ rest) := by
      obtain ⟨c, cs, chars, start⟩ := first.exists_cons
      rw [chars, List.cons_append] at line ⊢
      exact statement_of_content (isBlank_of_isKeyChar start) line
    have tail := ih (fun setting hs => bare setting (List.mem_cons_of_mem _ hs)) hy
    have whole : key.toList ++ [' ', '=', ' '] ++ x ++ '\n' :: y ++ rest
        = key.toList ++ ' ' :: '=' :: ' ' :: (x ++ '\n' :: (y ++ rest)) := by simp
    rw [whole]
    refine .step read ?_ tail
    simp only [List.length_append, List.length_cons]
    omega

theorem render?_eq_some_iff {t : SettingTable} : t.render? = some written ↔
    ∃ settings, renderSettings? t.settings = some settings ∧
      '[' :: t.name.toList ++ [']', '\n'] ++ settings = written := by
  simp [render?, Option.bind_eq_some_iff]

theorem repeats_table {t : SettingTable} (proper : t.IsProper) (h : t.render? = some written)
    (more : Repeats statement rest lines after) :
    Repeats statement (written ++ rest) (t.statements ++ lines) after := by
  obtain ⟨settings, hsettings, rfl⟩ := render?_eq_some_iff.1 h
  have header := statement_of_content (by decide) (content_header proper.name (settings ++ rest))
  have whole : '[' :: t.name.toList ++ [']', '\n'] ++ settings ++ rest
      = '[' :: (t.name.toList ++ ']' :: '\n' :: (settings ++ rest)) := by simp
  rw [whole]
  refine .step header ?_ (repeats_settings proper.keys hsettings more)
  simp only [List.length_cons, List.length_append]
  omega

theorem renderAll?_cons_cons_eq_some {t t' : SettingTable} {ts : List SettingTable} :
    renderAll? (t :: t' :: ts) = some written ↔ ∃ x y, t.render? = some x ∧
      renderAll? (t' :: ts) = some y ∧ x ++ '\n' :: y = written := by
  simp only [renderAll?, Option.bind_eq_bind, Option.bind_eq_some_iff, Option.pure_def,
    Option.some.injEq]
  constructor
  · rintro ⟨x, hx, y, hy, rfl⟩
    exact ⟨x, y, hx, hy, rfl⟩
  · rintro ⟨x, y, hx, hy, rfl⟩
    exact ⟨x, hx, y, hy, rfl⟩

theorem render?_eq_none_iff {t : SettingTable} :
    t.render? = none ↔ ∃ setting ∈ t.settings, setting.2.render? = none := by
  rw [← renderSettings?_eq_none_iff]
  cases settings : renderSettings? t.settings <;> simp [render?, settings]

/-- Tables can be written unless one of their settings cannot be. -/
theorem renderAll?_eq_none_iff {ts : List SettingTable} :
    renderAll? ts = none ↔ ∃ t ∈ ts, ∃ setting ∈ t.settings, setting.2.render? = none := by
  simp only [← render?_eq_none_iff]
  induction ts using allStatements.induct with
  | case1 => simp [renderAll?]
  | case2 t => simp [renderAll?]
  | case3 t ts several ih =>
    rw [renderAll?.eq_3 t ts several, List.exists_mem_cons_iff, ← ih]
    cases t.render? with
    | none => simp
    | some x => cases renderAll? ts <;> simp

/-- Each line of a document is scanned as the statement it was written for. -/
theorem repeats_tables {ts : List SettingTable} (proper : ∀ t ∈ ts, t.IsProper)
    (h : renderAll? ts = some written) : Repeats statement written (allStatements ts) [] := by
  induction ts using allStatements.induct generalizing written with
  | case1 =>
    cases h
    exact .stop rfl
  | case2 t =>
    have table := repeats_table (proper t List.mem_cons_self) h
      (.stop (show statement [] = none from rfl))
    rwa [List.append_nil, List.append_nil] at table
  | case3 t ts several ih =>
    cases ts with
    | nil => exact absurd rfl several
    | cons t' ts =>
      obtain ⟨x, y, hx, hy, rfl⟩ := renderAll?_cons_cons_eq_some.1 h
      have tail := ih (fun t ht => proper t (List.mem_cons_of_mem _ ht)) hy
      have blank : statement ('\n' :: y) = some (.blank, y) :=
        statement_of_content (by decide) (content_blank y)
      exact repeats_table (proper t List.mem_cons_self) hx
        (.step blank (Nat.lt_succ_self _) tail)

/-! ## Gathering -/

/-- The entries of a table that was written. -/
def entries (t : SettingTable) : Table := t.settings.map fun (key, s) => (key, s.value)

def paths (t : SettingTable) : List (KeyPath × Value) :=
  t.settings.map fun (key, s) => (⟨[], key⟩, s.value)

theorem sections_settings (settings : List (String × Setting)) (lines : List Statement) :
    sections (settings.map settingStatement ++ lines)
      = ((settings.map fun (key, s) => (⟨[], key⟩, s.value)) ++ (sections lines).1,
          (sections lines).2) := by
  induction settings with
  | nil => rfl
  | cons setting settings ih =>
    rw [List.map_cons, List.cons_append, settingStatement, sections, ih]
    rfl

theorem sections_table (t : SettingTable) (lines : List Statement) (h : (sections lines).1 = []) :
    sections (t.statements ++ lines) = ([], ⟨⟨[], t.name⟩, false, t.paths⟩ :: (sections lines).2) := by
  rw [statements, List.cons_append, sections, sections_settings, h, List.append_nil]
  rfl

theorem sections_allStatements (ts : List SettingTable) :
    sections (allStatements ts) = ([], ts.map fun t => ⟨⟨[], t.name⟩, false, t.paths⟩) := by
  induction ts using allStatements.induct with
  | case1 => rfl
  | case2 t =>
    have table := t.sections_table [] rfl
    rwa [List.append_nil] at table
  | case3 t ts several ih =>
    have rest : sections (.blank :: allStatements ts)
        = ([], ts.map fun t => ⟨⟨[], t.name⟩, false, t.paths⟩) := ih
    rw [allStatements.eq_3 t ts several, t.sections_table _ (by rw [rest]), rest, List.map_cons]

theorem lookup_eq_none {t : Table} {key : String} (h : key ∉ t.map Prod.fst) : t.lookup key = none := by
  rw [List.lookup_eq_none_iff]
  intro entry he
  have other : key ≠ entry.1 := fun same => h (same ▸ List.mem_map_of_mem he)
  simpa using other

theorem put_of_not_mem {t : Table} {key : String} (h : key ∉ t.map Prod.fst) (v : Value) :
    t.put key v = t ++ [(key, v)] := by
  induction t with
  | nil => rfl
  | cons entry t ih =>
    rw [List.map_cons, List.mem_cons, not_or] at h
    obtain ⟨k, old⟩ := entry
    rw [Table.put, if_neg (fun same => h.1 same.symm), ih h.2]
    rfl

/-- Settings are added one after another behind those that are there. -/
theorem addEntries_settings {t : Table} {settings : List (String × Setting)}
    (differ : (t.map Prod.fst ++ settings.map Prod.fst).Nodup) :
    Table.addEntries t (settings.map fun (key, s) => (⟨[], key⟩, s.value))
      = some (t ++ settings.map fun (key, s) => (key, s.value)) := by
  induction settings generalizing t with
  | nil => simp [Table.addEntries]
  | cons setting settings ih =>
    obtain ⟨key, s⟩ := setting
    have fresh : key ∉ t.map Prod.fst := by
      intro mem
      exact (List.nodup_append.1 differ).2.2 key mem key List.mem_cons_self rfl
    have added : Table.addEntry t ⟨[], key⟩ s.value = some (t ++ [(key, s.value)]) :=
      if_pos ⟨.inl rfl, by rw [lookup_eq_none fresh]; rfl⟩
    have rest := ih (t := t ++ [(key, s.value)]) (by simpa using differ)
    show (Table.addEntry t ⟨[], key⟩ s.value >>= fun t =>
      Table.addEntries t (settings.map fun (key, s) => (⟨[], key⟩, s.value))) = _
    rw [added]
    refine rest.trans ?_
    rw [List.append_assoc]
    rfl

/-- A table under a new name comes behind those that are there. -/
theorem addTable_of_not_mem {t : Table} {name : String} (h : name ∉ t.map Prod.fst)
    (entries : List (KeyPath × Value)) : t.addTable ⟨[], name⟩ entries
      = (Table.addEntries [] entries).map fun sub => t ++ [(name, .table .header sub)] := by
  simp only [Table.addTable, Table.change, lookup_eq_none h, put_of_not_mem h]

theorem foldlM_addSection {t : Table} {ts : List SettingTable} (proper : ∀ t ∈ ts, t.IsProper)
    (differ : (t.map Prod.fst ++ ts.map name).Nodup) :
    (ts.map fun t => (⟨⟨[], t.name⟩, false, t.paths⟩ : Section)).foldlM Table.addSection t
      = some (t ++ ts.map fun t => (t.name, .table .header t.entries)) := by
  induction ts generalizing t with
  | nil => simp
  | cons table ts ih =>
    have fresh : table.name ∉ t.map Prod.fst := by
      intro mem
      exact (List.nodup_append.1 differ).2.2 _ mem _ List.mem_cons_self rfl
    have gathered : Table.addEntries [] table.paths = some table.entries :=
      addEntries_settings (proper table List.mem_cons_self).keysDiffer
    have added : Table.addSection t ⟨⟨[], table.name⟩, false, table.paths⟩
        = some (t ++ [(table.name, .table .header table.entries)]) := by
      refine (addTable_of_not_mem fresh table.paths).trans ?_
      rw [gathered, Option.map_some]
    have rest := ih (t := t ++ [(table.name, .table .header table.entries)])
      (fun t ht => proper t (List.mem_cons_of_mem _ ht)) (by simpa using differ)
    rw [List.map_cons, List.foldlM_cons, added]
    refine rest.trans ?_
    rw [List.append_assoc]
    rfl

/-- A document starts with the header of its first table. -/
theorem head_renderAll {ts : List SettingTable} (h : renderAll? ts = some written) {c : Char}
    (hc : written.head? = some c) : c = '[' := by
  have table {t : SettingTable} {x y : List Char} (hx : t.render? = some x)
      (hc : (x ++ y).head? = some c) : c = '[' := by
    obtain ⟨settings, -, rfl⟩ := render?_eq_some_iff.1 hx
    exact (Option.some.inj hc).symm
  match ts with
  | [] =>
    cases h
    cases hc
  | [t] => exact table (t := t) h (y := []) (by rwa [List.append_nil])
  | t :: t' :: ts =>
    obtain ⟨x, y, hx, -, rfl⟩ := renderAll?_cons_cons_eq_some.1 h
    exact table hx hc

/-- Tables are read back as they were written, each by its name and each setting by its key. -/
theorem parse_renderAll {ts : List SettingTable} {text : List Char} (h : renderAll? ts = some text)
    (proper : ∀ t ∈ ts, t.IsProper) (differ : (ts.map name).Nodup) :
    parse text = some (ts.map fun t => (t.name, .table .header t.entries)) := by
  have noMark : discard (opt (char '\ufeff')) text = some ((), text) := by
    refine discard_of_some (opt_of_none (char_of_ne fun mark => ?_))
    exact absurd (head_renderAll h mark) (by decide)
  have scanned : Toml.statements text = some (allStatements ts, []) := by
    unfold Toml.statements
    rw [bind_of_some noMark, bind_of_some (repeats_tables proper h).many]
    rfl
  have gathered := foldlM_addSection (t := []) proper (by simpa using differ)
  unfold parse
  rw [scanned]
  show Table.ofStatements (allStatements ts) = _
  unfold Table.ofStatements
  rw [sections_allStatements]
  exact gathered

end SettingTable
end Toml
end VerifiedBoot
