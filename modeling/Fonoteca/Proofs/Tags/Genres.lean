import Fonoteca.Proofs.Tags.Normalization
import Fonoteca.Proofs.Text.Numeral

/-!
# Genres that are given by number

* `Genre.Gives` says which texts give a genre by number, without trimming them or taking them apart.
* `Genre.named?_eq_some_iff` : a name is found by the numeral of its number in the list.
* **`Genre.expand_decided`** : the texts that give one of the eighty numbers become the name with
  this number, all other texts stay as they are, and what has been named is not named again.
-/

set_option autoImplicit false

namespace Fonoteca
namespace Genre

open Text Numeral

variable {key : List Char} {n : ℕ}

/-- A text gives a number: the digits of the number without a zero in front, bare or in one pair of
parentheses, with blanks around this or not. -/
def Gives (s : String) (n : ℕ) : Prop :=
  ∃ before core after digits, s.toList = before ++ core ++ after ∧
    IsBlankText before ∧ IsBlankText after ∧
    (core = digits ∨ core = '(' :: digits ++ [')']) ∧ IsCanonical digits n

/-! ## Parentheses -/

/-- At most one pair of parentheses is taken off. -/
theorem eq_or_eq_of_unwrap {cs : List Char} (h : unwrap cs = key) :
    cs = key ∨ cs = '(' :: key ++ [')'] := by
  fun_cases unwrap cs with
  | case1 cs hlast =>
    rw [unwrap, if_pos hlast] at h
    refine .inr ?_
    rw [← h, List.cons_append, List.dropLast_append_getLast? _ hlast]
  | case2 cs hlast =>
    rw [unwrap, if_neg hlast] at h
    exact .inl h
  | case3 cs hfirst =>
    rw [unwrap.eq_2 _ hfirst] at h
    exact .inl h

theorem unwrap_parenthesised (key : List Char) : unwrap ('(' :: key ++ [')']) = key := by
  rw [List.cons_append, unwrap, List.getLast?_concat, if_pos rfl, List.dropLast_concat]

theorem unwrap_of_areDigits (h : AreDigits key) : unwrap key = key := by
  rw [unwrap.eq_2]
  rintro cs rfl
  have := h '(' (.head _)
  contradiction

theorem unwrap_eq_iff {cs : List Char} (h : AreDigits key) :
    unwrap cs = key ↔ cs = key ∨ cs = '(' :: key ++ [')'] := by
  constructor
  · exact eq_or_eq_of_unwrap
  · rintro (rfl | rfl)
    · exact unwrap_of_areDigits h
    · exact unwrap_parenthesised key

/-! ## Numbers -/

theorem isBlank_of_isDigit {c : Char} (h : c.isDigit = true) : isBlank c = false := by
  simp only [Char.isDigit, Bool.and_eq_true, decide_eq_true_eq] at h
  have h0 : 48 ≤ c.toNat := UInt32.le_iff_toNat_le.1 h.1
  have h9 : c.toNat ≤ 57 := UInt32.le_iff_toNat_le.1 h.2
  simp [isBlank, blankRanges]
  omega

/-- Digits are trimmed, and so are parentheses with something in them. -/
theorem trimChars_core {core : List Char} (h : AreDigits key)
    (hcore : core = key ∨ core = '(' :: key ++ [')']) : trimChars core = core := by
  rw [trimChars_eq_self_iff]
  rcases hcore with rfl | rfl
  · exact ⟨fun c hc => isBlank_of_isDigit (h c (List.mem_of_mem_head? hc)),
      fun c hc => isBlank_of_isDigit (h c (List.mem_of_mem_getLast? hc))⟩
  · constructor
    · rintro c ⟨⟩
      decide
    · rw [List.getLast?_concat]
      rintro c ⟨⟩
      decide

/-- **The number that a text gives** is the one whose numeral is left of it. -/
theorem gives_iff {s : String} :
    Gives s n ↔ unwrap (trimChars s.toList) = Nat.toDigits 10 n := by
  constructor
  · rintro ⟨before, core, after, digits, heq, hbefore, hafter, hcore, hdigits⟩
    rw [heq, trimChars_pad hbefore hafter, trimChars_core hdigits.digits hcore,
      isCanonical_iff.1 hdigits]
    exact (unwrap_eq_iff hdigits.digits).2 hcore
  · intro h
    have hcanonical := isCanonical_iff.2 (rfl : Nat.toDigits 10 n = _)
    obtain ⟨before, after, heq, hbefore, hafter⟩ := exists_pad s.toList
    exact ⟨before, _, after, _, heq, hbefore, hafter, eq_or_eq_of_unwrap h, hcanonical⟩

/-- A name is found by the numeral of its number. -/
theorem named?_eq_some_iff {name : String} :
    named? key = some name ↔ ∃ n, names[n]? = some name ∧ Nat.toDigits 10 n = key := by
  rw [named?, Option.map_eq_some_iff]
  constructor
  · rintro ⟨⟨name, n⟩, hfind, rfl⟩
    exact ⟨n, List.mem_zipIdx_iff_getElem?.1 (List.mem_of_find?_eq_some hfind),
      by simpa using List.find?_some hfind⟩
  · rintro ⟨n, hname, rfl⟩
    have hmem : (name, n) ∈ names.zipIdx := List.mem_zipIdx_iff_getElem?.2 hname
    obtain ⟨⟨name', n'⟩, hfind⟩ : ∃ e, names.zipIdx.find?
        (fun e => Nat.toDigits 10 e.2 = Nat.toDigits 10 n) = some e :=
      Option.isSome_iff_exists.1 (List.find?_isSome.2 ⟨_, hmem, by simp⟩)
    refine ⟨_, hfind, ?_⟩
    -- no other number has this numeral
    have hdigits : Nat.toDigits 10 n' = Nat.toDigits 10 n := by simpa using List.find?_some hfind
    have hn : n' = n := by
      rw [← @Nat.ofDigitChars_ten_toDigits n', hdigits, Nat.ofDigitChars_ten_toDigits]
    have hname' := List.mem_zipIdx_iff_getElem?.1 (List.mem_of_find?_eq_some hfind)
    rw [hn, hname] at hname'
    exact (Option.some.inj hname').symm

/-- **What a genre becomes**: the text for one of the eighty numbers becomes the name with this
number, and every other text, such as a number with a zero in front or in two pairs of parentheses,
stays as it is with its blanks.  Doing so again changes nothing. -/
theorem expand_decided (s : String) :
    (∀ n < 80, Gives s n → names[n]? = some (expand s)) ∧
    ((∀ n < 80, ¬ Gives s n) → expand s = s) ∧
    expand (expand s) = expand s := by
  refine ⟨fun n hn hgives => ?_, fun hnone => ?_, expand_expand s⟩
  · have hname : names[n]? = some names[n] := List.getElem?_eq_getElem hn
    rw [expand, named?_eq_some_iff.2 ⟨n, hname, (gives_iff.1 hgives).symm⟩, Option.getD_some, hname]
  · rw [expand]
    cases hnamed : named? (unwrap (trimChars s.toList)) with
    | none => rfl
    | some name =>
      obtain ⟨n, hname, hdigits⟩ := named?_eq_some_iff.1 hnamed
      have hn : n < 80 := (List.getElem?_eq_some_iff.1 hname).1
      exact absurd (gives_iff.2 hdigits.symm) (hnone n hn)

/-- A number with blanks and parentheses around it is named, one with a zero in front is not. -/
theorem expand_decided_seventeen :
    Gives " (17)\u3000" 17 ∧ expand " (17)\u3000" = "Rock" ∧ expand "Rock" = "Rock" ∧
      (∀ n < 80, ¬ Gives "(017)" n) ∧ expand "(017)" = "(017)" := by
  obtain ⟨hnamed, -, hagain⟩ := expand_decided " (17)\u3000"
  have hgives : Gives " (17)\u3000" 17 :=
    ⟨[' '], "(17)".toList, ['\u3000'], "17".toList, by decide +kernel, by decide, by decide,
      .inr (by decide +kernel), isCanonical_iff.2 (by decide +kernel)⟩
  have hrock : expand " (17)\u3000" = "Rock" := Option.some.inj (hnamed 17 (by decide) hgives).symm
  have hnone : ∀ n, ¬ Gives "(017)" n := by
    intro n hgives
    have hdigits : "017".toList = Nat.toDigits 10 n := by
      rw [← gives_iff.1 hgives]
      decide +kernel
    exact absurd ((isCanonical_iff.2 hdigits.symm).head (by decide +kernel)) (by decide +kernel)
  refine ⟨hgives, hrock, ?_, fun n _ => hnone n, (expand_decided "(017)").2.1 fun n _ => hnone n⟩
  rwa [hrock] at hagain

end Genre
end Fonoteca
