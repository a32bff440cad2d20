import Fonoteca.Text.Like
import Mathlib.Data.List.Infix
import Mathlib.Tactic.Common

/-!
# What a pattern stands for

`Text.like` divides a pattern into pieces and tries every run of characters for each `%`.  What it
decides can be said without any of that, character by character.

* `Matches look text pattern` is the meaning of a pattern, where characters are compared as `look`
  shows them.  It knows neither pieces nor an end at U+0000.
* **`like_iff_matches`** : this is what `like` decides, with characters as `seen` shows them.
* **`matches_wildcard_iff`** : the pattern of a value matches the texts with a stretch that looks
  like the value, whatever `look` is.
-/

set_option autoImplicit false

namespace Fonoteca
namespace Text

/-- What a comparison sees of a character. -/
def seen (c : Char) : Char :=
  foldCase (readable c)

variable {look : Char → Char} {text pattern value : List Char} {c d : Char}

/-- A text matches a pattern. -/
inductive Matches (look : Char → Char) : List Char → List Char → Prop
  /-- The empty pattern matches the empty text only. -/
  | nil : Matches look [] []
  /-- `%` stands for any run of characters, also for none. -/
  | run {text pattern : List Char} (skipped : List Char) (h : Matches look text pattern) :
      Matches look (skipped ++ text) ('%' :: pattern)
  /-- `_` stands for any single character. -/
  | any {text pattern : List Char} (c : Char) (h : Matches look text pattern) :
      Matches look (c :: text) ('_' :: pattern)
  /-- A character behind `\` stands for itself. -/
  | escaped {text pattern : List Char} {c d : Char} (hlook : look c = look d)
      (h : Matches look text pattern) : Matches look (d :: text) ('\\' :: c :: pattern)
  /-- So does any character that means nothing in a pattern. -/
  | plain {text pattern : List Char} {c d : Char} (hplain : isSpecial c = false)
      (hlook : look c = look d) (h : Matches look text pattern) :
      Matches look (d :: text) (c :: pattern)

/-- Some stretch of a text looks like a value. -/
def Contains (look : Char → Char) (value text : List Char) : Prop :=
  ∃ before stretch after, text = before ++ stretch ++ after ∧ value.map look = stretch.map look

/-! ## Taking a match apart

What the front of a pattern stands for is taken off the text, and the rest has to match the rest of
the pattern. -/

theorem matches_nil_iff : Matches look text [] ↔ text = [] := by
  constructor
  · intro h
    cases h
    rfl
  · rintro rfl
    exact .nil

theorem matches_run_iff :
    Matches look text ('%' :: pattern) ↔ ∃ rest, rest <:+ text ∧ Matches look rest pattern := by
  constructor
  · intro h
    cases h with
    | run skipped h => exact ⟨_, List.suffix_append _ _, h⟩
    | plain hplain => cases hplain
  · rintro ⟨rest, ⟨skipped, rfl⟩, h⟩
    exact .run skipped h

theorem matches_any_iff : Matches look text ('_' :: pattern) ↔
    ∃ rest, (∃ c, text = c :: rest) ∧ Matches look rest pattern := by
  constructor
  · intro h
    cases h with
    | any c h => exact ⟨_, ⟨c, rfl⟩, h⟩
    | plain hplain => cases hplain
  · rintro ⟨rest, ⟨c, rfl⟩, h⟩
    exact .any c h

theorem matches_escaped_iff : Matches look text ('\\' :: c :: pattern) ↔
    ∃ rest, (∃ d, text = d :: rest ∧ look c = look d) ∧ Matches look rest pattern := by
  constructor
  · intro h
    cases h with
    | escaped hlook h => exact ⟨_, ⟨_, rfl, hlook⟩, h⟩
    | plain hplain => cases hplain
  · rintro ⟨rest, ⟨d, rfl, hlook⟩, h⟩
    exact .escaped hlook h

theorem matches_plain_iff (hplain : isSpecial c = false) : Matches look text (c :: pattern) ↔
    ∃ rest, (∃ d, text = d :: rest ∧ look c = look d) ∧ Matches look rest pattern := by
  constructor
  · intro h
    cases h with
    | plain _ hlook h => exact ⟨_, ⟨_, rfl, hlook⟩, h⟩
    | run | any | escaped => cases hplain
  · rintro ⟨rest, ⟨d, rfl, hlook⟩, h⟩
    exact .plain hplain hlook h

/-- A lone `\` at the end stands for nothing at all. -/
theorem not_matches_lone_escape : ¬ Matches look text ['\\'] := by
  intro h
  cases h with
  | plain hplain => cases hplain

/-! ## What `like` decides -/

namespace Piece

theorem matchAll_nil_iff : matchAll [] text = true ↔ text = [] := by
  rw [matchAll, List.isEmpty_iff]

theorem mem_suffixes {cs ds : List Char} : cs ∈ suffixes ds ↔ cs <:+ ds := by
  induction ds with
  | nil => simp [suffixes]
  | cons d ds ih => rw [suffixes, List.mem_cons, ih, List.suffix_cons_iff]

theorem matchAll_run_iff {ps : List Piece} : matchAll (.run :: ps) text = true ↔
    ∃ rest, rest <:+ text ∧ matchAll ps rest = true := by
  simp only [matchAll, List.any_eq_true, mem_suffixes]

theorem matchAll_any_iff {ps : List Piece} : matchAll (.any :: ps) text = true ↔
    ∃ rest, (∃ c, text = c :: rest) ∧ matchAll ps rest = true := by
  cases text with
  | nil => simp [matchAll]
  | cons c rest => simp [matchAll]

theorem matchAll_exactly_iff {ps : List Piece} : matchAll (.exactly c :: ps) text = true ↔
    ∃ rest, (∃ d, text = d :: rest ∧ seen c = seen d) ∧ matchAll ps rest = true := by
  cases text with
  | nil => simp [matchAll]
  | cons d rest => simp [matchAll, sameLetter, seen]

/-- The pieces of a pattern match if the front one does and then those of the rest. -/
theorem exists_matchAll_iff {front : Piece} {taken : List Char → Prop}
    (hfront : ∀ ps, matchAll (front :: ps) text = true ↔
      ∃ rest, taken rest ∧ matchAll ps rest = true) :
    (∃ ps, (ofPattern pattern).map (front :: ·) = some ps ∧ matchAll ps text = true) ↔
      ∃ rest, taken rest ∧ ∃ ps, ofPattern pattern = some ps ∧ matchAll ps rest = true := by
  constructor
  · rintro ⟨_, hps, hmatch⟩
    obtain ⟨ps, hrest, rfl⟩ := Option.map_eq_some_iff.1 hps
    obtain ⟨rest, htaken, hmatch⟩ := (hfront ps).1 hmatch
    exact ⟨rest, htaken, ps, hrest, hmatch⟩
  · rintro ⟨rest, htaken, ps, hrest, hmatch⟩
    exact ⟨front :: ps, by rw [hrest, Option.map_some], (hfront ps).2 ⟨rest, htaken, hmatch⟩⟩

/-- The pieces of a pattern match what the pattern matches, and a pattern that has none matches
nothing. -/
theorem matchAll_ofPattern_iff :
    (∃ ps, ofPattern pattern = some ps ∧ matchAll ps text = true) ↔ Matches seen text pattern := by
  fun_induction ofPattern pattern generalizing text with
  | case1 => simp [matchAll_nil_iff, matches_nil_iff]
  | case2 c cs ih =>
    rw [exists_matchAll_iff fun ps => matchAll_exactly_iff, matches_escaped_iff]
    simp only [ih]
  | case3 => simp [not_matches_lone_escape]
  | case4 cs ih =>
    rw [exists_matchAll_iff fun ps => matchAll_run_iff, matches_run_iff]
    simp only [ih]
  | case5 cs ih =>
    rw [exists_matchAll_iff fun ps => matchAll_any_iff, matches_any_iff]
    simp only [ih]
  | case6 c cs hpair hlone hrun hany ih =>
    have hescape : c ≠ '\\' := by
      rintro rfl
      cases cs with
      | nil => exact hlone rfl rfl
      | cons first rest => exact hpair first rest rfl rfl
    have hplain : isSpecial c = false := by
      simp only [isSpecial, Bool.or_eq_false_iff, beq_eq_false_iff_ne]
      exact ⟨⟨hrun, hany⟩, hescape⟩
    rw [exists_matchAll_iff fun ps => matchAll_exactly_iff, matches_plain_iff hplain]
    simp only [ih]

end Piece

/-- **What `like` decides** is whether the text matches the pattern, both up to U+0000. -/
theorem like_iff_matches {text pattern : String} :
    like text pattern = true ↔ Matches seen (upToNul text.toList) (upToNul pattern.toList) := by
  rw [← Piece.matchAll_ofPattern_iff, like]
  cases Piece.ofPattern (upToNul pattern.toList) with
  | none => simp
  | some ps => simp

/-! ## The pattern of a value -/

/-- An escaped value stands for itself. -/
theorem matches_escapeSpecial_append_iff :
    Matches look text (escapeSpecial value ++ pattern) ↔
      ∃ front rest, text = front ++ rest ∧ value.map look = front.map look ∧
        Matches look rest pattern := by
  induction value generalizing text with
  | nil =>
    constructor
    · exact fun h => ⟨[], text, rfl, rfl, h⟩
    · rintro ⟨front, rest, rfl, hfront, h⟩
      obtain rfl : front = [] := by simpa using hfront.symm
      exact h
  | cons c value ih =>
    -- with the escape or without it, the first character stands for itself
    have hfirst : Matches look text (escapeSpecial (c :: value) ++ pattern) ↔
        ∃ rest, (∃ d, text = d :: rest ∧ look c = look d) ∧
          Matches look rest (escapeSpecial value ++ pattern) := by
      rw [escapeSpecial]
      split
      · exact matches_escaped_iff
      · next hplain => exact matches_plain_iff (by simpa using hplain)
    rw [hfirst]
    constructor
    · rintro ⟨_, ⟨d, rfl, hd⟩, h⟩
      obtain ⟨front, rest, rfl, hfront, h⟩ := ih.1 h
      exact ⟨d :: front, rest, rfl, by rw [List.map_cons, List.map_cons, hd, hfront], h⟩
    · rintro ⟨front, rest, rfl, hfront, h⟩
      cases front with
      | nil => simp at hfront
      | cons d front =>
        rw [List.map_cons, List.map_cons, List.cons.injEq] at hfront
        exact ⟨front ++ rest, ⟨d, rfl, hfront.1⟩, ih.2 ⟨front, rest, rfl, hfront.2, h⟩⟩

theorem toList_wildcard (value : String) :
    (wildcard value).toList = '%' :: (escapeSpecial value.toList ++ ['%']) := by
  rw [wildcard, String.toList_ofList]

/-- **The pattern of a value** matches the texts that contain the value, however characters are
compared. -/
theorem matches_wildcard_iff {value : String} :
    Matches look text (wildcard value).toList ↔ Contains look value.toList text := by
  have hend : ∀ rest, Matches look rest ['%'] := fun rest =>
    matches_run_iff.2 ⟨[], List.nil_suffix, .nil⟩
  rw [toList_wildcard, matches_run_iff]
  constructor
  · rintro ⟨_, ⟨before, rfl⟩, h⟩
    obtain ⟨stretch, after, rfl, hlook, -⟩ := matches_escapeSpecial_append_iff.1 h
    exact ⟨before, stretch, after, (List.append_assoc _ _ _).symm, hlook⟩
  · rintro ⟨before, stretch, after, rfl, hlook⟩
    refine ⟨stretch ++ after, ⟨before, (List.append_assoc _ _ _).symm⟩, ?_⟩
    exact matches_escapeSpecial_append_iff.2 ⟨stretch, after, rfl, hlook, hend after⟩

end Text
end Fonoteca
