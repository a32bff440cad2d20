import Fonoteca.Proofs.Toml.Text
import Fonoteca.Toml.Parser

/-!
# Reading back the lines of a document

A document that is written holds three kinds of lines: headers of tables, entries whose values are
texts, and empty ones.  Each is read for itself, whatever follows it.

* `name_append` and `keys_append` read a name without quotes.
* `linesUpTo_header`, `linesUpTo_entry` and `linesUpTo_break` read one line of each kind.
-/

set_option autoImplicit false

namespace Fonoteca
namespace Toml

variable {c : Char} {own cs rest : List Char}

/-! ## Names -/

theorem ne_of_isNameChar (h : isNameChar c = true) :
    c ≠ ' ' ∧ c ≠ '\t' ∧ c ≠ '\n' ∧ c ≠ '\r' ∧ c ≠ '#' ∧ c ≠ '[' ∧ c ≠ '"' ∧ c ≠ '\'' := by
  refine ⟨?_, ?_, ?_, ?_, ?_, ?_, ?_, ?_⟩ <;> rintro rfl <;> exact absurd h (by decide)

theorem dropBlanks_of_head (h : ∀ c ∈ cs.head?, c ≠ ' ' ∧ c ≠ '\t') : dropBlanks cs = cs := by
  cases cs with
  | nil => rfl
  | cons c cs =>
    obtain ⟨hspace, htab⟩ := h c rfl
    rw [dropBlanks, List.dropWhile_cons_of_neg (by simp [hspace, htab])]

/-- A name that can stand without quotes. -/
structure IsBare (own : List Char) : Prop where
  ne_nil : own ≠ []
  isNameChar : ∀ c ∈ own, isNameChar c = true

theorem IsBare.exists_cons (h : IsBare own) :
    ∃ c cs, own = c :: cs ∧ Toml.isNameChar c = true := by
  obtain ⟨c, cs, rfl⟩ := List.exists_cons_of_ne_nil h.ne_nil
  exact ⟨c, cs, rfl, h.isNameChar c (.head _)⟩

/-- A name is read up to the first character that cannot be part of it. -/
theorem name_append (h : IsBare own) (hrest : ∀ c ∈ rest.head?, isNameChar c = false) :
    name (own ++ rest) = some (own, rest) := by
  have htake : (own ++ rest).takeWhile isNameChar = own := by
    rw [List.takeWhile_append_of_pos h.isNameChar]
    cases rest with
    | nil => rw [List.takeWhile_nil, List.append_nil]
    | cons c cs => rw [List.takeWhile_cons_of_neg (by simp [hrest c rfl]), List.append_nil]
  have hsingle : singleText (own ++ rest) = none := by
    obtain ⟨c, cs, rfl, hc⟩ := h.exists_cons
    obtain ⟨-, -, -, -, -, -, hquote, hapostrophe⟩ := ne_of_isNameChar hc
    rw [List.cons_append, singleText.eq_def]
    split
    · next heq => exact absurd (List.cons.inj heq).1 hquote
    · next heq => exact absurd (List.cons.inj heq).1 hapostrophe
    · rfl
  rw [name, hsingle]
  dsimp only
  rw [htake, if_neg h.ne_nil, List.drop_left]

/-- A path of one name is read up to what is neither a blank nor a point. -/
theorem keys_append (h : IsBare own) (rest : List Char)
    (hrest : ∀ c ∈ rest.head?, isNameChar c = false)
    (hpoint : (dropBlanks rest).head? ≠ some '.') :
    keys (own ++ rest) = some ([String.ofList own], dropBlanks rest) := by
  have hblanks : dropBlanks (own ++ rest) = own ++ rest := by
    obtain ⟨c, cs, rfl, hc⟩ := h.exists_cons
    refine dropBlanks_of_head ?_
    rintro _ ⟨⟩
    exact ⟨(ne_of_isNameChar hc).1, (ne_of_isNameChar hc).2.1⟩
  rw [keys, maxNames, keysUpTo, hblanks, name_append h hrest]
  dsimp only [bind, Option.bind]
  split
  · next heq => exact absurd (by rw [heq]; rfl) hpoint
  · rfl

/-! ## Lines -/

/-- A character with which a line begins that holds something. -/
def beginsLine (c : Char) : Prop :=
  c ≠ ' ' ∧ c ≠ '\t' ∧ c ≠ '\n' ∧ c ≠ '\r' ∧ c ≠ '#'

/-- A line that holds something is read, and then the lines behind it. -/
theorem linesUpTo_cons {l : Line} (hc : beginsLine c)
    (hline : line (c :: cs) = some (l, '\n' :: rest)) (fuel : Nat) :
    linesUpTo (fuel + 1) (c :: cs) = (linesUpTo fuel rest).map (l :: ·) := by
  obtain ⟨hspace, htab, hfeed, hreturn, hcomment⟩ := hc
  have hblanks : dropBlanks (c :: cs) = c :: cs := by
    refine dropBlanks_of_head ?_
    rintro _ ⟨⟩
    exact ⟨hspace, htab⟩
  have hdrop : dropComment (c :: cs) = c :: cs := by
    rw [dropComment.eq_def]
    split
    · next heq => exact absurd (List.cons.inj heq).1 hcomment
    · rfl
  have hbreak : lineBreak? (c :: cs) = none := by
    rw [lineBreak?.eq_def]
    split
    · next heq => exact absurd (List.cons.inj heq).1 hfeed
    · next heq => exact absurd (List.cons.inj heq).1 hreturn
    · rfl
  rw [linesUpTo, hblanks, hdrop]
  dsimp only
  rw [hbreak]
  dsimp only
  rw [hblanks, hline]
  change (linesUpTo fuel rest).bind (fun ls => some (l :: ls)) = _
  cases linesUpTo fuel rest <;> rfl

theorem linesUpTo_break (fuel : Nat) (rest : List Char) :
    linesUpTo (fuel + 1) ('\n' :: rest) = linesUpTo fuel rest := by
  rw [linesUpTo]
  rfl

/-- The header of a table is read. -/
theorem linesUpTo_header (h : IsBare own) (fuel : Nat) (rest : List Char) :
    linesUpTo (fuel + 1) ('[' :: (own ++ ']' :: '\n' :: rest)) =
      (linesUpTo fuel rest).map (.header ⟨[String.ofList own], false⟩ :: ·) := by
  have hkeys : keys (own ++ ']' :: '\n' :: rest) =
      some ([String.ofList own], ']' :: '\n' :: rest) := by
    have hblanks : dropBlanks (']' :: '\n' :: rest) = ']' :: '\n' :: rest := rfl
    have hread := keys_append h (']' :: '\n' :: rest) (by simp; decide)
      (by rw [hblanks]; simp)
    rwa [hblanks] at hread
  refine linesUpTo_cons (by refine ⟨?_, ?_, ?_, ?_, ?_⟩ <;> decide) ?_ fuel
  obtain ⟨c, cs, rfl, hc⟩ := h.exists_cons
  obtain ⟨-, -, -, -, -, hbracket, -⟩ := ne_of_isNameChar hc
  rw [line, header.eq_def]
  split
  · next heq => exact absurd (List.cons.inj heq).1 hbracket
  · rw [hkeys]
    rfl

/-- A value that is a text is read up to the end of its line. -/
theorem value_writeChars (cs rest : List Char) :
    value maxDepth (dropBlanks (' ' :: (writeChars cs ++ '\n' :: rest))) =
      some (.text (String.ofList cs), '\n' :: rest) := by
  have hread := anyText_writeChars cs rest
  obtain ⟨d, ds, hd, hquote⟩ := exists_writeChars_eq_cons cs
  rw [hd, List.cons_append] at hread ⊢
  have hblanks : dropBlanks (' ' :: d :: (ds ++ '\n' :: rest)) = d :: (ds ++ '\n' :: rest) := by
    rw [dropBlanks, List.dropWhile_cons_of_pos (by decide)]
    refine dropBlanks_of_head ?_
    rintro _ ⟨⟩
    rcases hquote with rfl | rfl <;> decide
  rw [hblanks, maxDepth, value.eq_def]
  dsimp only
  split
  · next heq => rcases hquote with rfl | rfl <;> cases heq
  · next heq => rcases hquote with rfl | rfl <;> cases heq
  · rw [scalar.eq_def, hread]

/-- An entry whose value is a text is read. -/
theorem linesUpTo_entry (h : IsBare own) (fuel : Nat) (cs rest : List Char) :
    linesUpTo (fuel + 1) (own ++ ' ' :: '=' :: ' ' :: (writeChars cs ++ '\n' :: rest)) =
      (linesUpTo fuel rest).map
        (.entry [String.ofList own] (.text (String.ofList cs)) :: ·) := by
  have hkeys : keys (own ++ ' ' :: '=' :: ' ' :: (writeChars cs ++ '\n' :: rest)) =
      some ([String.ofList own], '=' :: ' ' :: (writeChars cs ++ '\n' :: rest)) := by
    have hblanks : dropBlanks (' ' :: '=' :: ' ' :: (writeChars cs ++ '\n' :: rest)) =
      '=' :: ' ' :: (writeChars cs ++ '\n' :: rest) := rfl
    have hread := keys_append h (' ' :: '=' :: ' ' :: (writeChars cs ++ '\n' :: rest))
      (by simp; decide) (by rw [hblanks]; simp)
    rwa [hblanks] at hread
  have hentry : entry (value maxDepth)
        (own ++ ' ' :: '=' :: ' ' :: (writeChars cs ++ '\n' :: rest)) =
      some (([String.ofList own], .text (String.ofList cs)), '\n' :: rest) := by
    rw [entry, hkeys]
    change (value maxDepth (dropBlanks (' ' :: (writeChars cs ++ '\n' :: rest)))).bind _ = _
    rw [value_writeChars]
    rfl
  obtain ⟨c, ds, rfl, hc⟩ := h.exists_cons
  obtain ⟨hspace, htab, hfeed, hreturn, hcomment, hbracket, -⟩ := ne_of_isNameChar hc
  rw [List.cons_append] at hentry ⊢
  refine linesUpTo_cons ⟨hspace, htab, hfeed, hreturn, hcomment⟩ ?_ fuel
  rw [line.eq_def]
  split
  · next heq => exact absurd (List.cons.inj heq).1 hbracket
  · rw [hentry]
    rfl

end Toml
end Fonoteca
