import Fonoteca.Toml.Text

/-!
# Reading back the texts of TOML

A text is written in one of four ways, and each of them is read back as the text.

* `ReadsEscapes` is what the readers between quotes have in common: they read a character back,
  whether it is written as it is or by an escape (`ReadsEscapes.escapeChar`).
* `basicFrom_escapeFrom`, `literal_append`, `multiFrom_escapeFrom` and `multiFrom_append` read a
  text of each of the four ways.  In a text on several lines the reader has to tell its quotes from
  those that close it: it counts quotes in a row, and there are never more than two of its own.
* `Style.of_eq_literal` and `Style.of_eq_multiLiteral` : a text is written without escapes only if
  it needs none.
* **`anyText_writeChars`** : reading undoes writing.
-/

set_option autoImplicit false

namespace Fonoteca
namespace Toml

variable {c : Char} {cs rest : List Char}

@[simp] theorem Reading.cons_some (front : List Char) (r : List Char × List Char) :
    Reading.cons front (some r) = some (front ++ r.1, r.2) :=
  rfl

theorem Reading.cons_cons (front front' : List Char) (r : Reading) :
    Reading.cons front (Reading.cons front' r) = Reading.cons (front ++ front') r := by
  cases r <;> simp [Reading.cons]

@[simp] theorem Reading.cons_nil (r : Reading) : Reading.cons [] r = r := by
  cases r <;> rfl

/-! ## One character -/

theorem ne_lineBreak_of_isPlain (h : isPlain c = true) : c ≠ '\n' ∧ c ≠ '\r' := by
  constructor <;> rintro rfl <;> exact absurd h (by decide)

theorem hexValue?_hexDigit {n : Nat} (h : n < 16) :
    Text.Numeral.hexValue? (hexDigit n) = some n := by
  have hall : ∀ n < 16, Text.Numeral.hexValue? (hexDigit n) = some n := by decide
  exact hall n h

theorem charOf?_toNat (c : Char) : charOf? c.toNat = some c := by
  have hvalid : c.toNat.isValidChar := c.valid
  rw [charOf?, if_pos hvalid, Char.ofNat_toNat]

/-- A character that has to be spelled out has a code point of at most two digits. -/
theorem toNat_lt_of_not_isPlain (h : isPlain c = false) : c.toNat < 0x80 := by
  simp only [isPlain, Bool.or_eq_false_iff, Bool.and_eq_false_iff, decide_eq_false_iff_not,
    bne_eq_false_iff_eq] at h
  omega

theorem codeStep_hexDigit {n value digits : Nat} (h : n < 16) (hdigits : 1 < digits) :
    codeStep digits value (hexDigit n) = some ([], .code (digits - 1) (16 * value + n)) := by
  rw [codeStep, hexValue?_hexDigit h]
  exact if_neg (by omega)

theorem codeStep_last {n value : Nat} (h : n < 16) (hc : 16 * value + n = c.toNat) :
    codeStep 1 value (hexDigit n) = some ([c], .quotes 0) := by
  rw [codeStep, hexValue?_hexDigit h]
  dsimp only [bind, Option.bind]
  rw [if_pos (by omega), hc, charOf?_toNat]
  rfl

/-- What the readers of a text between quotes have in common. -/
structure ReadsEscapes (read : Mode → List Char → Reading) : Prop where
  backslash : ∀ cs, read (.quotes 0) ('\\' :: cs) = read .escape cs
  escape : ∀ {c front m}, escapeStep c = some (front, m) → ∀ cs,
    read .escape (c :: cs) = Reading.cons front (read m cs)
  code : ∀ {digits value c front m}, codeStep digits value c = some (front, m) → ∀ cs,
    read (.code digits value) (c :: cs) = Reading.cons front (read m cs)
  plain : ∀ {c}, isPlain c = true → c ≠ '"' → c ≠ '\\' → ∀ cs,
    read (.quotes 0) (c :: cs) = Reading.cons [c] (read (.quotes 0) cs)

namespace ReadsEscapes

variable {read : Mode → List Char → Reading}

theorem letter (h : ReadsEscapes read) {d : Char} (hd : escaped? d = some c) (cs : List Char) :
    read (.quotes 0) ('\\' :: d :: cs) = Reading.cons [c] (read (.quotes 0) cs) := by
  rw [h.backslash, h.escape (by rw [escapeStep, hd])]

theorem codeEscape (h : ReadsEscapes read) (hc : c.toNat < 0x10000) (cs : List Char) :
    read (.quotes 0) (Toml.codeEscape c ++ cs) = Reading.cons [c] (read (.quotes 0) cs) := by
  rw [Toml.codeEscape]
  simp only [List.cons_append, List.nil_append]
  rw [h.backslash, h.escape (c := 'u') (show escapeStep 'u' = some ([], .code 4 0) from rfl),
    h.code (codeStep_hexDigit (by omega) (by omega)),
    h.code (codeStep_hexDigit (by omega) (by omega)),
    h.code (codeStep_hexDigit (by omega) (by omega)),
    h.code (codeStep_last (c := c) (by omega) (by omega))]
  simp only [Reading.cons_nil]

/-- **A character is read back**, unless it is a quote or a line break that stands as it is. -/
theorem escapeChar (h : ReadsEscapes read) {multi : Bool} (hquote : c ≠ '"')
    (hbreak : c = '\n' → multi = false) (cs : List Char) :
    read (.quotes 0) (Toml.escapeChar multi c ++ cs) = Reading.cons [c] (read (.quotes 0) cs) := by
  rw [Toml.escapeChar]
  split
  · next hc => exact hc ▸ h.letter rfl cs
  split
  · next hc => exact hc ▸ h.letter rfl cs
  split
  · next hc =>
    rw [if_neg (by simp [hbreak hc])]
    exact hc ▸ h.letter rfl cs
  split
  · next hc => exact hc ▸ h.letter rfl cs
  split
  · next hc => exact hc ▸ h.letter rfl cs
  split
  · next hc =>
    obtain rfl := hc
    exact h.letter rfl cs
  next hbackslash =>
  split
  · next hplain => exact h.plain hplain hquote hbackslash cs
  · next hplain =>
    have hlt := toNat_lt_of_not_isPlain (by simpa using hplain)
    exact h.codeEscape (by omega) cs

end ReadsEscapes

/-- What stands for a character does not begin with a quote, nor with a line break unless it is one
itself. -/
theorem exists_escapeChar_eq_cons (multi : Bool) (hquote : c ≠ '"') :
    ∃ d ds, escapeChar multi c = d :: ds ∧ d ≠ '"' ∧ d ≠ '\r' ∧ (d = '\n' → c = '\n') := by
  have hbackslash : ∀ ds, ∃ d ds', '\\' :: ds = d :: ds' ∧ d ≠ '"' ∧ d ≠ '\r' ∧
      (d = '\n' → c = '\n') :=
    fun ds => ⟨'\\', ds, rfl, by decide, by decide, fun h => absurd h (by decide)⟩
  rw [escapeChar]
  split
  · exact hbackslash _
  split
  · exact hbackslash _
  split
  · next hc =>
    split
    · exact ⟨'\n', [], rfl, by decide, by decide, fun _ => hc⟩
    · exact hbackslash _
  split
  · exact hbackslash _
  split
  · exact hbackslash _
  next hreturn =>
  split
  · exact hbackslash _
  split
  · exact ⟨c, [], rfl, hquote, hreturn, id⟩
  · exact hbackslash _

/-! ## Texts on one line -/

theorem readsEscapes_basicFrom : ReadsEscapes basicFrom where
  backslash := fun cs => rfl
  escape := fun hstep cs => by rw [basicFrom, hstep, Option.bind_some]
  code := fun hstep cs => by rw [basicFrom, hstep, Option.bind_some]
  plain := fun hplain hquote hbackslash cs => by
    rw [basicFrom, if_neg hquote, if_neg hbackslash, if_pos hplain]
    · simp
    · simp

/-- A text between quotes is read back. -/
theorem basicFrom_escapeFrom (run : Nat) (cs rest : List Char) :
    basicFrom (.quotes 0) (escapeFrom false run cs ++ '"' :: rest) = some (cs, rest) := by
  induction cs generalizing run with
  | nil => rfl
  | cons c cs ih =>
    by_cases hc : c = '"'
    · rw [escapeFrom, if_pos hc, if_neg Bool.false_ne_true, if_pos (Nat.zero_le run),
        List.cons_append, List.cons_append, readsEscapes_basicFrom.letter rfl, ih, hc]
      rfl
    · rw [escapeFrom, if_neg hc, List.append_assoc,
        readsEscapes_basicFrom.escapeChar hc fun _ => rfl, ih]
      rfl

/-- A text between apostrophes is read back. -/
theorem literal_append (h : ∀ c ∈ cs, isPlain c = true ∧ c ≠ '\'') (rest : List Char) :
    literal (cs ++ '\'' :: rest) = some (cs, rest) := by
  induction cs with
  | nil => rfl
  | cons c cs ih =>
    obtain ⟨⟨hplain, hne⟩, hcs⟩ := List.forall_mem_cons.1 h
    rw [List.cons_append, literal, if_neg hne, if_pos hplain, ih hcs]
    rfl

/-! ## Texts on several lines -/

section

variable {quote : Char} {escapes : Bool} {n : Nat}

theorem multiFrom_quote (h : n + 1 ≠ maxQuotes) (cs : List Char) :
    multiFrom quote escapes (.quotes n) (quote :: cs) =
      multiFrom quote escapes (.quotes (n + 1)) cs := by
  rw [multiFrom, if_pos rfl, if_neg h]

/-- Fewer than three quotes in a row belong to the text. -/
theorem multiFrom_quotes (hn : n < 3) (hc : c ≠ quote) (cs : List Char) :
    multiFrom quote escapes (.quotes n) (c :: cs) =
      Reading.cons (List.replicate n quote) (multiFrom quote escapes (.quotes 0) (c :: cs)) := by
  have hzero : ¬ 3 ≤ 0 := by decide
  rw [multiFrom, if_neg hc, if_neg (by omega), multiFrom, if_neg hc, if_neg hzero,
    List.replicate_zero, Reading.cons_nil]

/-- The last three of the quotes in a row close the text. -/
theorem multiFrom_close (hn : n < 3) (hrest : rest.head? ≠ some quote) :
    multiFrom quote escapes (.quotes n) (quote :: quote :: quote :: rest) =
      some (List.replicate n quote, rest) := by
  have hend : ∀ n, 3 ≤ n → multiFrom quote escapes (.quotes n) rest =
      some (List.replicate (n - 3) quote, rest) := by
    intro n hn
    cases rest with
    | nil => rw [multiFrom, if_pos hn]
    | cons c cs =>
      have hc : c ≠ quote := by simpa using hrest
      rw [multiFrom, if_neg hc, if_pos hn]
  rw [multiFrom_quote (by rw [maxQuotes]; omega), multiFrom_quote (by rw [maxQuotes]; omega)]
  by_cases hmax : n + 1 + 1 + 1 = maxQuotes
  · obtain rfl : n = 2 := by rw [maxQuotes] at hmax; omega
    rw [multiFrom, if_pos rfl, if_pos hmax]
  · rw [multiFrom_quote hmax, hend _ (by omega), show n + 1 + 1 + 1 - 3 = n from rfl]

end

theorem readsEscapes_multiFrom : ReadsEscapes (multiFrom '"' true) where
  backslash := fun cs => by
    rw [multiFrom, if_neg (by decide), if_neg (by decide), if_pos ⟨rfl, rfl⟩, List.replicate_zero,
      Reading.cons_nil]
  escape := fun {c front m} hstep cs => by
    -- none of the characters that end a line has a meaning after a backslash
    have hne : ∀ d, escapeStep d = none → c ≠ d := by
      rintro d hd rfl
      cases hstep.symm.trans hd
    rw [multiFrom, if_neg (by simp [hne ' ' rfl, hne '\t' rfl]), if_neg (hne '\n' rfl),
      if_neg (by simp [hne '\r' rfl]), hstep, Option.bind_some]
  code := fun hstep cs => by rw [multiFrom, hstep, Option.bind_some]
  plain := fun hplain hquote hbackslash cs => by
    rw [multiFrom, if_neg hquote, if_neg (by decide), if_neg (by simp [hbackslash]),
      if_neg (ne_lineBreak_of_isPlain hplain).2, if_pos (.inl hplain), List.replicate_zero,
      Reading.cons_nil]

/-- A line break of a text on several lines is read as it is. -/
theorem multiFrom_lineBreak (quote : Char) (escapes : Bool) (hquote : quote ≠ '\n')
    (cs : List Char) :
    multiFrom quote escapes (.quotes 0) ('\n' :: cs) =
      Reading.cons ['\n'] (multiFrom quote escapes (.quotes 0) cs) := by
  rw [multiFrom, if_neg hquote.symm, if_neg (by decide), if_neg (by simp), if_neg (by decide),
    if_pos (.inr rfl), List.replicate_zero, Reading.cons_nil]

/-- A character between quotes is read back after the quotes in front of it. -/
theorem multiFrom_escapeChar {n : Nat} (hn : n < 3) (hquote : c ≠ '"') (cs : List Char) :
    multiFrom '"' true (.quotes n) (escapeChar true c ++ cs) =
      Reading.cons (List.replicate n '"' ++ [c]) (multiFrom '"' true (.quotes 0) cs) := by
  have hread : multiFrom '"' true (.quotes 0) (escapeChar true c ++ cs) =
      Reading.cons [c] (multiFrom '"' true (.quotes 0) cs) := by
    by_cases hbreak : c = '\n'
    · subst hbreak
      exact multiFrom_lineBreak '"' true (by decide) cs
    · exact readsEscapes_multiFrom.escapeChar hquote (fun h => absurd h hbreak) cs
  obtain ⟨d, ds, heq, hd, -⟩ := exists_escapeChar_eq_cons true hquote
  rw [heq, List.cons_append] at hread ⊢
  rw [multiFrom_quotes hn hd, hread, Reading.cons_cons]

/-- A text between three quotes is read back. -/
theorem multiFrom_escapeFrom {n : Nat} (hn : n < 3) (hrest : rest.head? ≠ some '"')
    (cs : List Char) :
    multiFrom '"' true (.quotes n) (escapeFrom true n cs ++ '"' :: '"' :: '"' :: rest) =
      some (List.replicate n '"' ++ cs, rest) := by
  induction cs generalizing n with
  | nil =>
    rw [List.append_nil]
    exact multiFrom_close hn hrest
  | cons c cs ih =>
    by_cases hc : c = '"'
    · obtain rfl := hc
      rw [escapeFrom, if_pos rfl, if_pos rfl]
      split
      · -- the third quote in a row is written by an escape
        rw [List.cons_append, List.cons_append, multiFrom_quotes hn (by decide),
          readsEscapes_multiFrom.letter rfl, Reading.cons_cons, ih (by omega)]
        simp
      · next hrun =>
        rw [List.cons_append, multiFrom_quote (by rw [maxQuotes]; omega), ih (by omega),
          List.replicate_succ']
        simp
    · rw [escapeFrom, if_neg hc, List.append_assoc, multiFrom_escapeChar hn hc, ih (by omega)]
      simp

theorem Style.le_longestRun (c : Char) (run longest : Nat) (cs : List Char) :
    longest ≤ longestRun c run longest cs := by
  fun_induction longestRun c run longest cs with
  | case1 => exact Nat.le_refl _
  | case2 run longest cs ih => exact Nat.le_trans (Nat.le_max_left _ _) ih
  | case3 _ _ _ _ _ ih => exact ih

/-- A text between three apostrophes is read back, if it has never more than two in a row. -/
theorem multiFrom_append {n longest : Nat} (hn : n < 3)
    (hplain : ∀ c ∈ cs, isPlain c = true ∨ c = '\n')
    (hrun : Style.longestRun '\'' n longest cs ≤ 2) (hrest : rest.head? ≠ some '\'') :
    multiFrom '\'' false (.quotes n) (cs ++ '\'' :: '\'' :: '\'' :: rest) =
      some (List.replicate n '\'' ++ cs, rest) := by
  induction cs generalizing n longest with
  | nil =>
    rw [List.append_nil]
    exact multiFrom_close hn hrest
  | cons c cs ih =>
    obtain ⟨hc, hcs⟩ := List.forall_mem_cons.1 hplain
    rw [Style.longestRun] at hrun
    rw [List.cons_append]
    split at hrun
    · next heq =>
      obtain rfl := heq
      have hlongest :=
        Nat.le_trans (Nat.le_max_right _ _) (Nat.le_trans (Style.le_longestRun _ _ _ _) hrun)
      rw [multiFrom_quote (by rw [maxQuotes]; omega), ih (by omega) hcs hrun,
        List.replicate_succ']
      simp
    · next hne =>
      rw [multiFrom_quotes hn hne]
      have hread : multiFrom '\'' false (.quotes 0) (c :: (cs ++ '\'' :: '\'' :: '\'' :: rest)) =
          Reading.cons [c] (multiFrom '\'' false (.quotes 0)
            (cs ++ '\'' :: '\'' :: '\'' :: rest)) := by
        have hreturn : c ≠ '\r' := by
          rcases hc with hc | rfl
          · exact (ne_lineBreak_of_isPlain hc).2
          · decide
        rw [multiFrom, if_neg hne, if_neg (by decide), if_neg (by simp), if_neg hreturn, if_pos hc,
          List.replicate_zero, Reading.cons_nil]
      rw [hread, ih (by omega) hcs hrun]
      simp

/-! ## The way that is chosen -/

namespace Style

theorem one_le_longestRun (h : c ∈ cs) (run longest : Nat) :
    1 ≤ longestRun c run longest cs := by
  fun_induction longestRun c run longest cs with
  | case1 => cases h
  | case2 run longest cs ih =>
    exact Nat.le_trans (Nat.le_add_left 1 run)
      (Nat.le_trans (Nat.le_max_right _ _) (le_longestRun _ _ _ _))
  | case3 run longest d cs hne ih => exact ih (List.mem_of_ne_of_mem (Ne.symm hne) h)

theorem plain_of_codes (h : cs.any needsCode = false) :
    ∀ c ∈ cs, isPlain c = true ∨ c = '\n' := by
  intro c hc
  have hcode := List.any_eq_false.1 h c hc
  by_cases hbreak : c = '\n'
  · exact .inr hbreak
  · exact .inl (by simpa [needsCode, hbreak] using hcode)

/-- A text is written between apostrophes only if it can stand there as it is. -/
theorem of_eq_literal (h : of cs = literal) : ∀ c ∈ cs, isPlain c = true ∧ c ≠ '\'' := by
  rw [of] at h
  split at h
  · cases h
  split at h
  · next hcond =>
    simp only [Bool.and_eq_true, Bool.not_eq_true', beq_iff_eq] at hcond
    obtain ⟨⟨hcodes, hrun⟩, hbreak⟩ := hcond
    intro c hc
    have hno : c ≠ '\n' := by
      rintro rfl
      rw [List.contains_iff_mem.2 hc] at hbreak
      cases hbreak
    refine ⟨(plain_of_codes hcodes c hc).resolve_right hno, ?_⟩
    rintro rfl
    have := one_le_longestRun hc 0 0
    omega
  split at h
  · cases h
  split at h
  · cases h
  split at h <;> cases h

/-- A text is written between three apostrophes only if it can stand there as it is. -/
theorem of_eq_multiLiteral (h : of cs = multiLiteral) :
    (∀ c ∈ cs, isPlain c = true ∨ c = '\n') ∧ longestRun '\'' 0 0 cs ≤ 2 := by
  rw [of] at h
  split at h
  · cases h
  split at h
  · cases h
  split at h
  · cases h
  split at h
  · next hcond =>
    simp only [Bool.and_eq_true, Bool.not_eq_true', decide_eq_true_eq] at hcond
    exact ⟨plain_of_codes hcond.1, hcond.2⟩
  split at h <;> cases h

end Style

/-! ## All texts -/

theorem dropLineBreak_of_head (h : ∀ c ∈ cs.head?, c ≠ '\n' ∧ c ≠ '\r') :
    dropLineBreak cs = cs := by
  rw [dropLineBreak.eq_def]
  split
  · exact absurd rfl (h _ rfl).1
  · exact absurd rfl (h _ rfl).2
  · rfl

/-- The line break that opens a text with line breaks is dropped, and nothing else is. -/
theorem dropLineBreak_opening {inner : List Char}
    (h : '\n' ∉ cs → ∀ c ∈ inner.head?, c ≠ '\n' ∧ c ≠ '\r') :
    dropLineBreak ((if '\n' ∈ cs then ['\n'] else []) ++ inner) = inner := by
  split
  · rfl
  · next hno => exact dropLineBreak_of_head (h hno)

theorem head?_escapeFrom (h : '\n' ∉ cs) (rest : List Char) :
    ∀ c ∈ (escapeFrom true 0 cs ++ '"' :: rest).head?, c ≠ '\n' ∧ c ≠ '\r' := by
  cases cs with
  | nil =>
    rintro _ ⟨⟩
    decide
  | cons c cs =>
    rw [escapeFrom]
    split
    · rintro _ ⟨⟩
      decide
    · next hquote =>
      obtain ⟨d, ds, heq, -, hreturn, hbreak⟩ := exists_escapeChar_eq_cons true hquote
      rw [heq]
      rintro _ ⟨⟩
      exact ⟨fun hd => h (hbreak hd ▸ .head _), hreturn⟩

theorem singleText_of_anyText {r : List Char × List Char} (h : singleText cs = some r)
    (hquotes : ∀ rest, cs ≠ '"' :: '"' :: '"' :: rest)
    (hapostrophes : ∀ rest, cs ≠ '\'' :: '\'' :: '\'' :: rest) : anyText cs = some r := by
  rw [anyText]
  · exact h
  · exact hquotes
  · exact hapostrophes

theorem anyText_basic (cs rest : List Char) :
    anyText ('"' :: (escapeFrom false 0 cs ++ '"' :: '\n' :: rest)) = some (cs, '\n' :: rest) := by
  refine singleText_of_anyText (basicFrom_escapeFrom 0 cs _) ?_ ?_
  · -- no quote of the text stands behind the opening one as it is
    intro rest' heq
    cases cs with
    | nil => cases heq
    | cons c cs =>
      rw [escapeFrom] at heq
      split at heq
      · cases heq
      · next hquote =>
        obtain ⟨d, ds, hd, hne, -⟩ := exists_escapeChar_eq_cons false hquote
        rw [hd] at heq
        exact hne (List.cons.inj (List.cons.inj heq).2).1
  · intro rest' heq
    cases heq

theorem anyText_literal (h : ∀ c ∈ cs, isPlain c = true ∧ c ≠ '\'') (rest : List Char) :
    anyText ('\'' :: (cs ++ '\'' :: '\n' :: rest)) = some (cs, '\n' :: rest) := by
  refine singleText_of_anyText (literal_append h _) ?_ ?_
  · intro rest' heq
    cases heq
  · intro rest' heq
    cases cs with
    | nil => cases heq
    | cons c cs => exact (h c (.head _)).2 (List.cons.inj (List.cons.inj heq).2).1

theorem anyText_multiBasic (cs rest : List Char) :
    anyText ('"' :: '"' :: '"' :: ((if '\n' ∈ cs then ['\n'] else []) ++
      (escapeFrom true 0 cs ++ '"' :: '"' :: '"' :: '\n' :: rest))) =
      some (cs, '\n' :: rest) := by
  rw [anyText, multiBasic, dropLineBreak_opening fun hno => head?_escapeFrom hno _]
  exact multiFrom_escapeFrom (n := 0) (by decide) (by simp) cs

theorem anyText_multiLiteral (hplain : ∀ c ∈ cs, isPlain c = true ∨ c = '\n')
    (hrun : Style.longestRun '\'' 0 0 cs ≤ 2) (rest : List Char) :
    anyText ('\'' :: '\'' :: '\'' :: ((if '\n' ∈ cs then ['\n'] else []) ++
      (cs ++ '\'' :: '\'' :: '\'' :: '\n' :: rest))) = some (cs, '\n' :: rest) := by
  rw [anyText, multiLiteral, dropLineBreak_opening]
  · exact multiFrom_append (n := 0) (by decide) hplain hrun (by simp)
  · intro hno
    cases cs with
    | nil =>
      rintro _ ⟨⟩
      decide
    | cons c cs =>
      rintro _ ⟨⟩
      have hc := (hplain c (.head _)).resolve_right fun h => hno (h ▸ .head _)
      exact ne_lineBreak_of_isPlain hc

/-- **Reading undoes writing**, for every text at the end of a line. -/
theorem anyText_writeChars (cs rest : List Char) :
    anyText (writeChars cs ++ '\n' :: rest) = some (cs, '\n' :: rest) := by
  rw [writeChars]
  cases hstyle : Style.of cs with
  | basic => simpa [Style.delimiter, Style.isMulti] using anyText_basic cs rest
  | literal =>
    simpa [Style.delimiter, Style.isMulti] using anyText_literal (Style.of_eq_literal hstyle) rest
  | multiBasic => simpa [Style.delimiter, Style.isMulti] using anyText_multiBasic cs rest
  | multiLiteral =>
    obtain ⟨hplain, hrun⟩ := Style.of_eq_multiLiteral hstyle
    simpa [Style.delimiter, Style.isMulti] using anyText_multiLiteral hplain hrun rest

/-- A text that is written begins with a quote or an apostrophe. -/
theorem exists_writeChars_eq_cons (cs : List Char) :
    ∃ c rest, writeChars cs = c :: rest ∧ (c = '"' ∨ c = '\'') := by
  rw [writeChars]
  cases Style.of cs with
  | basic | multiBasic => exact ⟨'"', _, rfl, .inl rfl⟩
  | literal | multiLiteral => exact ⟨'\'', _, rfl, .inr rfl⟩

end Toml
end Fonoteca
