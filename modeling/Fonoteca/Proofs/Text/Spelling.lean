import Fonoteca.Proofs.Text.ShortLiteral
import Mathlib.Data.List.TakeWhile

/-!
# How decimal literals are written

* A `Spelling` has the parts of a decimal literal, `Spelling.IsDecimal` says what they are made of,
  and `Spelling.value` is the number that they denote.
* `Literal.read?_eq_some_iff` : the texts that are read as literals are the spellings of them.
* `Spelling.IsExact` are the spellings whose numbers survive being worked out in binary
  (`Spelling.compareInt_amount`).
* `Amount.ofText?_of_int64?` : a text that is read as a whole number of 64 bits is read as a literal
  of this number too.
-/

set_option autoImplicit false

namespace Fonoteca
namespace Text

/-! ## Spellings -/

/-- The exponent of a literal, as it is written. -/
structure ExponentSpelling where
  letter : Char
  sign : List Char
  digits : List Char

/-- A decimal literal in its parts, as it is written. -/
structure Spelling where
  sign : List Char
  whole : List Char
  /-- The digits behind the point, if there is one. -/
  fraction : Option (List Char)
  exponent : Option ExponentSpelling

/-- A sign that may be left out. -/
def IsSign (cs : List Char) : Prop :=
  cs = [] ∨ cs = ['-'] ∨ cs = ['+']

/-- A number with its sign. -/
def withSign (sign : List Char) (n : ℕ) : ℤ :=
  if sign = ['-'] then -n else n

/-- The characters are digits. -/
def AreDigits (cs : List Char) : Prop :=
  ∀ c ∈ cs, c.isDigit = true

namespace ExponentSpelling

structure IsDecimal (e : ExponentSpelling) : Prop where
  letter : e.letter = 'e' ∨ e.letter = 'E'
  sign : IsSign e.sign
  digits : AreDigits e.digits
  digits_ne_nil : e.digits ≠ []

def text (e : ExponentSpelling) : List Char :=
  e.letter :: (e.sign ++ e.digits)

/-- The exponent that is written. -/
def value (e : ExponentSpelling) : ℤ :=
  withSign e.sign (Numeral.value e.digits)

/-- What the exponent counts as. -/
def counted (e : ExponentSpelling) : ℤ :=
  withSign e.sign (if Numeral.value e.digits < Literal.exponentLimits.1 then
    Numeral.value e.digits else Literal.exponentLimits.2)

end ExponentSpelling

namespace Spelling

/-- The digits in front of the point and behind it. -/
def digits (p : Spelling) : List Char :=
  p.whole ++ p.fraction.getD []

/-- The literal has digits at one side of the point at least. -/
structure IsDecimal (p : Spelling) : Prop where
  sign : IsSign p.sign
  digits : AreDigits p.digits
  digits_ne_nil : p.digits ≠ []
  exponent : ∀ e ∈ p.exponent, e.IsDecimal

/-- The point with what stands behind it. -/
def fractionText (p : Spelling) : List Char :=
  p.fraction.elim [] ('.' :: ·)

def exponentText (p : Spelling) : List Char :=
  p.exponent.elim [] (·.text)

/-- The literal as it is written. -/
def text (p : Spelling) : List Char :=
  p.sign ++ (p.whole ++ (p.fractionText ++ p.exponentText))

/-- The power of ten that the digits are multiplied by. -/
def power (p : Spelling) : ℤ :=
  p.exponent.elim 0 (·.value) - (p.fraction.getD []).length

/-- The number that is written. -/
def value (p : Spelling) : ℚ :=
  withSign p.sign (Numeral.value p.digits) * 10 ^ p.power

/-- The literal has neither a point nor an exponent. -/
def IsWhole (p : Spelling) : Prop :=
  p.fraction = none ∧ p.exponent = none

/-- What the literal is read as. -/
def literal (p : Spelling) : Literal where
  negative := p.sign = ['-']
  digits := p.digits
  exponent := p.exponent.elim 0 (·.counted) - (p.fraction.getD []).length
  whole := p.fraction.isNone && p.exponent.isNone

end Spelling

/-! ## Reading a spelling -/

theorem takeWhile_append_of_stop {p : Char → Bool} {cs ds : List Char} (hcs : ∀ c ∈ cs, p c = true)
    (hds : ∀ d ∈ ds.head?, p d = false) : (cs ++ ds).takeWhile p = cs := by
  rw [List.takeWhile_append_of_pos hcs]
  cases ds with
  | nil => simp
  | cons d ds => simp [hds d rfl]

theorem dropWhile_append_of_stop {p : Char → Bool} {cs ds : List Char} (hcs : ∀ c ∈ cs, p c = true)
    (hds : ∀ d ∈ ds.head?, p d = false) : (cs ++ ds).dropWhile p = ds := by
  rw [List.dropWhile_append_of_pos hcs]
  cases ds with
  | nil => simp
  | cons d ds => simp [hds d rfl]

namespace Literal

/-- A sign is read off a text that goes on with something else. -/
theorem sign_append {s cs : List Char} (hs : IsSign s) (hcs : ∀ c ∈ cs.head?, c ≠ '-' ∧ c ≠ '+') :
    sign (s ++ cs) = (decide (s = ['-']), cs) := by
  rcases hs with rfl | rfl | rfl
  · cases cs with
    | nil => rfl
    | cons c cs =>
      obtain ⟨hminus, hplus⟩ := hcs c rfl
      rw [List.nil_append, sign]
      · rfl
      · exact fun _ h => hminus (List.cons.inj h).1
      · exact fun _ h => hplus (List.cons.inj h).1
  · rfl
  · rfl

theorem exists_sign (cs : List Char) :
    ∃ s rest, IsSign s ∧ cs = s ++ rest ∧ sign cs = (decide (s = ['-']), rest) := by
  fun_cases sign cs with
  | case1 cs => exact ⟨['-'], cs, .inr (.inl rfl), rfl, rfl⟩
  | case2 cs => exact ⟨['+'], cs, .inr (.inr rfl), rfl, rfl⟩
  | case3 => exact ⟨[], cs, .inl rfl, rfl, rfl⟩

theorem isDigit_not_sign {c : Char} (h : c.isDigit = true) : c ≠ '-' ∧ c ≠ '+' := by
  constructor <;>
  · rintro rfl
    revert h
    decide

theorem digits?_eq_some_iff {cs : List Char} {n : ℕ} :
    Numeral.digits? cs = some n ↔ AreDigits cs ∧ cs ≠ [] ∧ n = Numeral.value cs := by
  rw [Numeral.digits?]
  by_cases h : cs ≠ [] ∧ cs.all Char.isDigit = true
  · rw [if_pos h, Option.some.injEq]
    exact ⟨fun hn => ⟨List.all_eq_true.1 h.2, h.1, hn.symm⟩, fun hn => hn.2.2.symm⟩
  · rw [if_neg h]
    refine ⟨fun hn => (nomatch hn), fun hn => (h ⟨hn.2.1, List.all_eq_true.2 hn.1⟩).elim⟩

/-- The exponents that are read. -/
theorem exponent?_eq_some_iff {cs : List Char} {k : Option ℤ} :
    exponent? cs = some k ↔ ∃ e : Option ExponentSpelling, (∀ x ∈ e, x.IsDecimal) ∧
      cs = e.elim [] (·.text) ∧ k = e.map (·.counted) := by
  constructor
  · intro h
    cases cs with
    | nil => exact ⟨none, by simp, rfl, (Option.some.inj h).symm⟩
    | cons c cs =>
      rw [exponent?] at h
      split at h
      · next hc =>
        obtain ⟨s, ds, hs, rfl, hsign⟩ := exists_sign cs
        rw [hsign] at h
        obtain ⟨n, hn, rfl⟩ := Option.map_eq_some_iff.1 h
        obtain ⟨hds, hne, rfl⟩ := digits?_eq_some_iff.1 hn
        refine ⟨some ⟨c, s, ds⟩, ?_, rfl, ?_⟩
        · rintro e ⟨⟩
          exact ⟨hc, hs, hds, hne⟩
        · simp [ExponentSpelling.counted, withSign]
      · cases h
  · rintro ⟨e, he, rfl, rfl⟩
    cases e with
    | none => rfl
    | some e =>
      have he := he e rfl
      have hhead : ∀ c ∈ e.digits.head?, c ≠ '-' ∧ c ≠ '+' := fun c hc =>
        isDigit_not_sign (he.digits c (List.mem_of_mem_head? hc))
      have hn := digits?_eq_some_iff.2 ⟨he.digits, he.digits_ne_nil, rfl⟩
      rw [Option.elim_some, ExponentSpelling.text, exponent?, if_pos he.letter,
        sign_append he.sign hhead]
      simp [hn, ExponentSpelling.counted, withSign]

/-- What follows the digits of a literal begins with no digit. -/
theorem head_exponentText {p : Spelling} (h : p.IsDecimal) :
    ∀ c ∈ p.exponentText.head?, c.isDigit = false ∧ c ≠ '.' := by
  intro c hc
  rw [Spelling.exponentText] at hc
  cases he : p.exponent with
  | none => simp [he] at hc
  | some e =>
    obtain rfl : e.letter = c := by simpa [he, ExponentSpelling.text] using hc
    rcases (h.exponent e he).letter with hletter | hletter <;>
    · rw [hletter]
      decide

theorem fraction_text {p : Spelling} (h : p.IsDecimal) :
    fraction (p.fractionText ++ p.exponentText) = (p.fraction, p.exponentText) := by
  have hstop := fun c hc => (head_exponentText h c hc).1
  rw [Spelling.fractionText]
  cases hf : p.fraction with
  | none =>
    rw [Option.elim_none, List.nil_append]
    cases hcs : p.exponentText with
    | nil => rfl
    | cons c cs =>
      have hc := (head_exponentText h c (by rw [hcs]; rfl)).2
      rw [fraction]
      exact fun _ heq => hc (List.cons.inj heq).1
  | some ds =>
    have hds : ∀ c ∈ ds, c.isDigit = true := fun c hc =>
      h.digits c (by simp [Spelling.digits, hf, hc])
    rw [Option.elim_some, List.cons_append, fraction, takeWhile_append_of_stop hds hstop,
      dropWhile_append_of_stop hds hstop]

/-- **A spelling is read.** -/
theorem read?_of_spelling {p : Spelling} {cs : List Char} (h : p.IsDecimal)
    (hcs : strip cs = p.text) : read? cs = some p.literal := by
  have hwhole : ∀ c ∈ p.whole, c.isDigit = true := fun c hc =>
    h.digits c (by simp [Spelling.digits, hc])
  have hstop : ∀ c ∈ (p.fractionText ++ p.exponentText).head?, c.isDigit = false := by
    intro c hc
    rw [Spelling.fractionText] at hc
    cases hf : p.fraction with
    | none => exact (head_exponentText h c (by simpa [hf] using hc)).1
    | some ds =>
      obtain rfl : '.' = c := by simpa [hf] using hc
      decide
  have hhead : ∀ c ∈ (p.whole ++ (p.fractionText ++ p.exponentText)).head?, c ≠ '-' ∧ c ≠ '+' := by
    intro c hc
    cases hw : p.whole with
    | cons d ds =>
      obtain rfl : d = c := by simpa [hw] using hc
      exact isDigit_not_sign (hwhole d (by simp [hw]))
    | nil =>
      have hne := h.digits_ne_nil
      rw [Spelling.digits, hw] at hne
      cases hf : p.fraction with
      | none => simp [hf] at hne
      | some ds =>
        obtain rfl : '.' = c := by simpa [hw, Spelling.fractionText, hf] using hc
        decide
  have hexponent : exponent? p.exponentText = some (p.exponent.map (·.counted)) :=
    exponent?_eq_some_iff.2 ⟨p.exponent, h.exponent, rfl, rfl⟩
  rw [read?, hcs, Spelling.text, sign_append h.sign hhead]
  dsimp only
  rw [takeWhile_append_of_stop hwhole hstop, dropWhile_append_of_stop hwhole hstop, fraction_text h]
  dsimp only
  rw [← Spelling.digits, if_neg h.digits_ne_nil, hexponent, Option.map_some, Option.some.injEq,
    Spelling.literal, Option.isNone_map]
  cases p.exponent <;> rfl

theorem exists_fraction (cs : List Char) :
    ∃ f rest, (∀ ds ∈ f, AreDigits ds) ∧ cs = f.elim [] ('.' :: ·) ++ rest ∧
      fraction cs = (f, rest) := by
  fun_cases fraction cs with
  | case1 cs =>
    refine ⟨some (cs.takeWhile Char.isDigit), cs.dropWhile Char.isDigit, ?_, ?_, rfl⟩
    · rintro ds ⟨⟩ c hc
      exact List.mem_takeWhile_imp hc
    · rw [Option.elim_some, List.cons_append, List.takeWhile_append_dropWhile]
  | case2 => exact ⟨none, cs, by simp, rfl, rfl⟩

/-- **What is read is a spelling.** -/
theorem exists_spelling {cs : List Char} {l : Literal} (h : read? cs = some l) :
    ∃ p : Spelling, p.IsDecimal ∧ strip cs = p.text ∧ l = p.literal := by
  obtain ⟨s, body, hs, hbody, hsign⟩ := exists_sign (strip cs)
  obtain ⟨f, rest, hf, hrest, hfraction⟩ := exists_fraction (body.dropWhile Char.isDigit)
  rw [read?, hsign] at h
  dsimp only at h
  rw [hfraction] at h
  dsimp only at h
  split at h
  · cases h
  · next hne =>
    obtain ⟨k, hk, rfl⟩ := Option.map_eq_some_iff.1 h
    obtain ⟨e, he, rfl, rfl⟩ := exponent?_eq_some_iff.1 hk
    refine ⟨⟨s, body.takeWhile Char.isDigit, f, e⟩, ⟨hs, ?_, hne, he⟩, ?_, ?_⟩
    · intro c hc
      rcases List.mem_append.1 hc with hc | hc
      · exact List.mem_takeWhile_imp hc
      · cases f with
        | none => cases hc
        | some ds => exact hf ds rfl c hc
    · rw [hbody, Spelling.text, Spelling.fractionText, Spelling.exponentText, ← hrest,
        List.takeWhile_append_dropWhile]
    · rw [Spelling.literal, Option.isNone_map]
      cases e <;> rfl

/-- **The texts that are read as literals are the spellings of them.** -/
theorem read?_eq_some_iff {cs : List Char} {l : Literal} :
    read? cs = some l ↔ ∃ p : Spelling, p.IsDecimal ∧ strip cs = p.text ∧ l = p.literal := by
  constructor
  · exact exists_spelling
  · rintro ⟨p, hp, hcs, rfl⟩
    exact read?_of_spelling hp hcs

end Literal

/-! ## Exact spellings -/

namespace Spelling

/-- The number of the spelling survives: it is a whole number of 64 bits that is written without
point and exponent, or else it is short. -/
def IsExact (p : Spelling) : Prop :=
  (p.IsWhole ∧ Numeral.int64Min ≤ p.value ∧ p.value ≤ Numeral.int64Max) ∨
    ((∀ e ∈ p.exponent, Numeral.value e.digits < Literal.exponentLimits.1) ∧
      Numeral.value p.digits * 10 ^ p.power.toNat < 10 ^ 15 ∧ -300 ≤ p.power)

theorem literal_whole_iff {p : Spelling} : p.literal.whole = true ↔ p.IsWhole := by
  simp [literal, IsWhole]

/-- Without point and exponent the number is the whole number of the digits. -/
theorem value_of_isWhole {p : Spelling} (h : p.IsWhole) :
    p.value = (Amount.wholeOf p.literal : ℤ) := by
  obtain ⟨hfraction, hexponent⟩ := h
  have hpower : p.power = 0 := by simp [power, hfraction, hexponent]
  rw [value, hpower, zpow_zero, mul_one, Int.cast_inj, withSign, Amount.wholeOf]
  simp only [literal, decide_eq_true_eq, Literal.coefficient]

/-- A written exponent that is not too long counts as it is. -/
theorem value_literal {p : Spelling}
    (h : ∀ e ∈ p.exponent, Numeral.value e.digits < Literal.exponentLimits.1) :
    p.literal.exponent = p.power ∧ p.literal.value = p.value := by
  have hexponent : p.literal.exponent = p.power := by
    rw [literal, power]
    cases he : p.exponent with
    | none => rfl
    | some e =>
      simp only [Option.elim_some, ExponentSpelling.counted, ExponentSpelling.value,
        if_pos (h e he)]
  refine ⟨hexponent, ?_⟩
  rw [Literal.value, value, hexponent, withSign, Literal.coefficient]
  simp only [literal, decide_eq_true_eq]
  split
  · push_cast
    ring
  · push_cast
    ring

/-- **A whole number compares with what an exact spelling is read as, as with the number that is
written.** -/
theorem compareInt_amount {p : Spelling} (h : p.IsExact) (n : ℤ) :
    (Amount.ofLiteral p.literal).compareInt n = compare (n : ℚ) p.value := by
  rw [Amount.ofLiteral]
  split
  · next hwhole =>
    rw [value_of_isWhole (literal_whole_iff.1 hwhole.1), Amount.compareInt]
    exact compare_congr (by exact_mod_cast Iff.rfl) (by exact_mod_cast Iff.rfl)
  · next hnot =>
    rcases h with ⟨hwhole, hlow, hhigh⟩ | ⟨hexponent, hdigits, hplaces⟩
    · rw [value_of_isWhole hwhole] at hlow hhigh
      exact (hnot ⟨literal_whole_iff.2 hwhole, by exact_mod_cast hlow,
        by exact_mod_cast hhigh⟩).elim
    · obtain ⟨hpower, hvalue⟩ := value_literal hexponent
      rw [← hvalue]
      exact Literal.compareInt_binary ⟨hpower ▸ hdigits, hpower ▸ hplaces⟩ n

end Spelling

/-! ## Whole numbers of 64 bits -/

/-- A whole number has the sign that a literal has. -/
theorem Numeral.signed?_eq (cs : List Char) :
    Numeral.signed? cs = (Numeral.digits? (Literal.sign cs).2).map fun n : ℕ =>
      if (Literal.sign cs).1 then -(n : ℤ) else n := by
  match cs with
  | [] => rfl
  | c :: cs =>
    by_cases hminus : c = '-'
    · rw [hminus, signed?, Literal.sign]
      cases digits? cs <;> rfl
    · by_cases hplus : c = '+'
      · rw [hplus, signed?, Literal.sign]
        cases digits? cs <;> rfl
      · rw [signed?, Literal.sign]
        · cases digits? (c :: cs) <;> rfl
        all_goals simp [hminus, hplus]

namespace Literal

theorem not_isSpace_of_isDigit {c : Char} (h : c.isDigit = true) : isSpace c = false := by
  have hlow : '0' ≤ c := by
    simp only [Char.isDigit, Bool.and_eq_true, decide_eq_true_eq] at h
    exact h.1
  have hspace : (c == ' ') = false := beq_false_of_ne fun hc => absurd (hc ▸ h) (by decide)
  have hbreak : ¬ c ≤ '\r' := fun hc =>
    absurd (Char.le_trans hlow hc) (show ¬ '0' ≤ '\r' by decide)
  simp [isSpace, hspace, hbreak]

/-- There are no spaces around a whole number. -/
theorem strip_whole {s ds : List Char} (hs : IsSign s) (hds : AreDigits ds) :
    strip (s ++ ds) = s ++ ds := by
  have hnone : ∀ c ∈ s ++ ds, isSpace c = false := by
    intro c hc
    rcases List.mem_append.1 hc with hc | hc
    · rcases hs with rfl | rfl | rfl
      · cases hc
      · obtain rfl := List.mem_singleton.1 hc
        decide
      · obtain rfl := List.mem_singleton.1 hc
        decide
    · exact not_isSpace_of_isDigit (hds c hc)
  have hdrop : ∀ cs : List Char, (∀ c ∈ cs, isSpace c = false) → cs.dropWhile isSpace = cs := by
    intro cs hcs
    exact List.dropWhile_eq_self_iff.2 fun h => by simpa using hcs _ (List.getElem_mem h)
  rw [strip, hdrop _ hnone, hdrop _ fun c hc => hnone c (List.mem_reverse.1 hc),
    List.reverse_reverse]

end Literal

namespace Amount

/-- **A text that is a whole number of 64 bits is the amount of this number**, with whatever sign
and leading zeros it is written. -/
theorem ofText?_of_int64? {text : String} {n : ℤ} (h : Numeral.int64? text = some n) :
    ofText? text = some (.whole n) := by
  obtain ⟨hsigned, hbounds⟩ := Option.filter_eq_some_iff.1 h
  obtain ⟨s, ds, hs, htext, hsign⟩ := Literal.exists_sign text.toList
  rw [Numeral.signed?_eq, hsign] at hsigned
  obtain ⟨m, hm, rfl⟩ := Option.map_eq_some_iff.1 hsigned
  obtain ⟨hds, hne, rfl⟩ := Literal.digits?_eq_some_iff.1 hm
  have hread : Literal.read? text.toList = some (Spelling.literal ⟨s, ds, none, none⟩) := by
    refine Literal.read?_eq_some_iff.2 ⟨_, ⟨hs, by simpa [Spelling.digits] using hds,
      by simpa [Spelling.digits] using hne, by simp⟩, ?_, rfl⟩
    rw [htext, Literal.strip_whole hs hds]
    simp [Spelling.text, Spelling.fractionText, Spelling.exponentText]
  have hwhole : wholeOf (Spelling.literal ⟨s, ds, none, none⟩) =
      if decide (s = ['-']) then -(Numeral.value ds : ℤ) else Numeral.value ds := by
    simp [wholeOf, Spelling.literal, Spelling.digits, Literal.coefficient]
  rw [ofText?, hread, Option.map_some, ofLiteral, hwhole,
    if_pos ⟨rfl, by simpa using hbounds⟩]

end Amount

end Text
end Fonoteca
