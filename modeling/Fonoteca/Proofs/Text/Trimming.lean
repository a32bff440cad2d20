import Fonoteca.Text.Blank
import Mathlib.Data.List.Infix
import Mathlib.Data.List.TakeWhile

/-!
# Trimmed texts

A text is trimmed if it neither begins nor ends with a blank; the empty text is.  Blanks around a
text do not change what is left of it.

* `trimChars_eq_self_iff` says which texts are trimmed.
* `trimChars_pad` drops the blanks around a text, `trimChars_isInfix` says that nothing else is
  dropped.
* `IsTrimOf` says what is left of a text without saying how it is found, and `isTrimOf_iff` that
  this is what `trim` leaves.
-/

set_option autoImplicit false

namespace Fonoteca
namespace Text

/-- All of the characters are blanks. -/
def IsBlankText (cs : List Char) : Prop :=
  ∀ c ∈ cs, isBlank c = true

instance (cs : List Char) : Decidable (IsBlankText cs) :=
  decidable_of_iff (cs.all isBlank = true) List.all_eq_true

theorem trimFront_append_left {a : List Char} (ha : IsBlankText a) (cs : List Char) :
    trimFront (a ++ cs) = trimFront cs :=
  List.dropWhile_append_of_pos ha

/-- Either nothing is left in front of the blanks at the end, or they stay. -/
theorem trimFront_append_right {b : List Char} (hb : IsBlankText b) (cs : List Char) :
    trimFront (cs ++ b) = if trimFront cs = [] then [] else trimFront cs ++ b := by
  have hnil : b.dropWhile isBlank = [] := List.dropWhile_eq_nil_iff.2 hb
  rw [trimFront, List.dropWhile_append, hnil, trimFront]
  simp only [List.isEmpty_iff]

theorem trimChars_append_left {a : List Char} (ha : IsBlankText a) (cs : List Char) :
    trimChars (a ++ cs) = trimChars cs := by
  rw [trimChars, trimFront_append_left ha, trimChars]

theorem trimChars_append_right {b : List Char} (hb : IsBlankText b) (cs : List Char) :
    trimChars (cs ++ b) = trimChars cs := by
  have hb' : IsBlankText b.reverse := fun c hc => hb c (List.mem_reverse.1 hc)
  rw [trimChars, trimFront_append_right hb, trimChars]
  split
  · next h => rw [h]
  · rw [List.reverse_append, trimFront_append_left hb']

/-- **Blanks around a text do not count.** -/
theorem trimChars_pad {a b : List Char} (ha : IsBlankText a) (hb : IsBlankText b)
    (cs : List Char) : trimChars (a ++ cs ++ b) = trimChars cs := by
  rw [trimChars_append_right hb, trimChars_append_left ha]

/-- A trimmed text is left as it is. -/
@[simp] theorem trim_trim (s : String) : trim (trim s) = trim s := by
  rw [trim, toList_trim, trimChars_trimChars, trim]

/-- A text is what is left of it with blanks around. -/
theorem exists_pad (cs : List Char) :
    ∃ a b, cs = a ++ trimChars cs ++ b ∧ IsBlankText a ∧ IsBlankText b := by
  refine ⟨cs.takeWhile isBlank, ((trimFront cs).reverse.takeWhile isBlank).reverse, ?_,
    fun c hc => List.mem_takeWhile_imp hc,
    fun c hc => List.mem_takeWhile_imp (List.mem_reverse.1 hc)⟩
  have hfront : ∀ ds : List Char, ds.takeWhile isBlank ++ trimFront ds = ds := fun ds =>
    List.takeWhile_append_dropWhile
  rw [List.append_assoc, trimChars, ← List.reverse_append, hfront, List.reverse_reverse, hfront]

/-- What is left of a text stands in it as it is. -/
theorem trimChars_isInfix (cs : List Char) : trimChars cs <:+: cs := by
  obtain ⟨a, b, hcs, -, -⟩ := exists_pad cs
  exact ⟨a, b, hcs.symm⟩

theorem trimFront_eq_self_iff {cs : List Char} :
    trimFront cs = cs ↔ ∀ c ∈ cs.head?, isBlank c = false := by
  cases cs with
  | nil => simp [trimFront]
  | cons c cs =>
    constructor
    · intro h d hd
      obtain rfl : c = d := by simpa using hd
      exact isBlank_of_trimFront h
    · intro h
      exact trimFront_cons (h c (by simp))

/-- **The trimmed texts** neither begin nor end with a blank. -/
theorem trimChars_eq_self_iff {cs : List Char} :
    trimChars cs = cs ↔
      (∀ c ∈ cs.head?, isBlank c = false) ∧ ∀ c ∈ cs.getLast?, isBlank c = false := by
  have hback : (∀ c ∈ cs.getLast?, isBlank c = false) ↔ trimFront cs.reverse = cs.reverse := by
    rw [trimFront_eq_self_iff, List.head?_reverse]
  rw [← trimFront_eq_self_iff, hback]
  constructor
  · intro h
    have hfront : trimFront cs = cs := by rw [← h, trimFront_trimChars]
    refine ⟨hfront, ?_⟩
    rw [trimChars, hfront] at h
    rw [← List.reverse_eq_iff]
    exact h
  · rintro ⟨hfront, hback⟩
    rw [trimChars, hfront, hback, List.reverse_reverse]

/-- The first text is what is left of the second: it neither begins nor ends with a blank, and what
stands before and after it in the second one is blank. -/
def IsTrimOf (t s : String) : Prop :=
  ∃ before after, s.toList = before ++ t.toList ++ after ∧
    IsBlankText before ∧ IsBlankText after ∧
    (∀ c ∈ t.toList.head?, isBlank c = false) ∧ ∀ c ∈ t.toList.getLast?, isBlank c = false

/-- **Trimming leaves what is left of a text**, and nothing else is. -/
theorem isTrimOf_iff {t s : String} : IsTrimOf t s ↔ trim s = t := by
  constructor
  · rintro ⟨before, after, heq, hbefore, hafter, hends⟩
    rw [trim, heq, trimChars_pad hbefore hafter, trimChars_eq_self_iff.2 hends, String.ofList_toList]
  · rintro rfl
    obtain ⟨before, after, heq, hbefore, hafter⟩ := exists_pad s.toList
    rw [← toList_trim] at heq
    exact ⟨before, after, heq, hbefore, hafter,
      trimChars_eq_self_iff.1 (by rw [toList_trim, trimChars_trimChars])⟩

end Text
end Fonoteca
