import Fonoteca.Proofs.Lists
import Fonoteca.Proofs.Text.Pattern
import Mathlib.Data.List.TakeWhile

/-!
# Finding a value in a text

The pattern of a value finds the texts in which the value occurs, character by character and up to
the case of ASCII letters.  Nothing in the value has a meaning of its own.

* `OccursAs look value text` says that a value occurs in a text when both are looked at through
  `look`.  A value that holds U+0000 counts up to there only, and then has to end the text; a text
  counts up to its first U+0000.
* `like_wildcard_iff` says that the pattern of a value finds it, as `Text.seen` shows it.
* `occursAs_seen_toString_iff` says that a number is found only by its own digits.
* **`like_wildcard_iff_contains`** : the pattern of a value matches the texts that contain it, and
  `like` decides that, with U+FFFE and U+FFFF as U+FFFD.
-/

set_option autoImplicit false

namespace Fonoteca
namespace Text

/-- A value occurs in a text, as `look` shows them. -/
def OccursAs (look : Char → Char) (value text : String) : Prop :=
  if '\x00' ∈ value.toList then
    (upToNul value.toList).map look <:+ (upToNul text.toList).map look
  else value.toList.map look <:+: (upToNul text.toList).map look

/-- To contain a value is to have it as a stretch, as `look` shows both. -/
theorem contains_iff_isInfix {look : Char → Char} {value text : List Char} :
    Contains look value text ↔ value.map look <:+: text.map look := by
  constructor
  · rintro ⟨before, stretch, after, rfl, h⟩
    rw [h]
    exact ⟨before.map look, after.map look, by simp⟩
  · rintro ⟨a, b, h⟩
    obtain ⟨rest, after, rfl, hrest, rfl⟩ := List.append_eq_map_iff.1 h
    obtain ⟨before, stretch, rfl, rfl, hstretch⟩ := List.append_eq_map_iff.1 hrest.symm
    exact ⟨before, stretch, after, rfl, hstretch.symm⟩

/-- The end of a text that looks like a value. -/
theorem map_isSuffix_map_iff {look : Char → Char} {value cs : List Char} :
    value.map look <:+ cs.map look ↔ ∃ ds, ds <:+ cs ∧ value.map look = ds.map look := by
  constructor
  · rintro ⟨a, h⟩
    obtain ⟨before, ds, rfl, rfl, hds⟩ := List.append_eq_map_iff.1 h
    exact ⟨ds, ⟨before, rfl⟩, hds.symm⟩
  · rintro ⟨ds, ⟨before, rfl⟩, h⟩
    rw [h]
    exact ⟨before.map look, by simp⟩

/-! ## The pattern of a value -/

theorem upToNul_escapeSpecial (cs : List Char) :
    upToNul (escapeSpecial cs) = escapeSpecial (upToNul cs) := by
  induction cs with
  | nil => rfl
  | cons c cs ih =>
    by_cases hc : c = '\x00'
    · subst hc
      rfl
    · have hkeep : ∀ ds, upToNul (c :: ds) = c :: upToNul ds := fun ds => by
        simp [upToNul, hc]
      have hescape : ∀ ds, upToNul ('\\' :: ds) = '\\' :: upToNul ds := fun ds => rfl
      rw [hkeep, escapeSpecial, escapeSpecial]
      split
      · rw [hescape, hkeep, ih]
      · rw [hkeep, ih]

theorem mem_escapeSpecial_nul {cs : List Char} :
    '\x00' ∈ escapeSpecial cs ↔ '\x00' ∈ cs := by
  induction cs with
  | nil => rfl
  | cons c cs ih =>
    rw [escapeSpecial]
    split <;> simp [ih]

theorem upToNul_of_not_mem {cs : List Char} (h : '\x00' ∉ cs) : upToNul cs = cs := by
  rw [upToNul, List.takeWhile_eq_self_iff]
  intro c hc
  have hne : c ≠ '\x00' := fun hnul => h (hnul ▸ hc)
  simpa using hne

theorem upToNul_append_of_mem {cs : List Char} (h : '\x00' ∈ cs) (ds : List Char) :
    upToNul (cs ++ ds) = upToNul cs := by
  rw [upToNul, List.takeWhile_append, if_neg, upToNul]
  intro hlen
  have heq := (List.takeWhile_prefix (fun c : Char => c != '\x00')).eq_of_length hlen
  have := List.takeWhile_eq_self_iff.1 heq '\x00' h
  simp at this

/-- **The pattern of a value finds it wherever it occurs.** -/
theorem like_wildcard_iff {value text : String} :
    like text (wildcard value) = true ↔ OccursAs seen value text := by
  rw [like_iff_matches, OccursAs]
  by_cases h : '\x00' ∈ value.toList
  · have hpattern : upToNul (wildcard value).toList =
        '%' :: (escapeSpecial (upToNul value.toList) ++ []) := by
      rw [toList_wildcard, List.append_nil, ← upToNul_escapeSpecial,
        ← upToNul_append_of_mem (mem_escapeSpecial_nul.2 h) ['%']]
      rfl
    rw [if_pos h, hpattern, matches_run_iff, map_isSuffix_map_iff]
    simp only [matches_escapeSpecial_append_iff, matches_nil_iff]
    refine exists_congr fun ds => and_congr_right fun _ => ?_
    constructor
    · rintro ⟨front, rest, rfl, hfront, rfl⟩
      rw [hfront, List.append_nil]
    · exact fun hds => ⟨ds, [], by simp, hds, rfl⟩
  · have hnul : '\x00' ∉ (wildcard value).toList := by
      simp [toList_wildcard, mem_escapeSpecial_nul, h]
    rw [if_neg h, upToNul_of_not_mem hnul, matches_wildcard_iff, contains_iff_isInfix]

/-! ## Numbers -/

/-- A digit or a minus sign, as numerals are made of them. -/
def IsNumeralChar (c : Char) : Prop :=
  c.isDigit = true ∨ c = '-'

theorem isNumeralChar_of_mem_toString {n : Int} {c : Char} (h : c ∈ (toString n).toList) :
    IsNumeralChar c := by
  have hnat : ∀ m : Nat, c ∈ (toString m).toList → c.isDigit = true := fun m hm =>
    Nat.isDigit_of_mem_toDigits (b := 10) (n := m) (by decide) (by decide) (by simpa using hm)
  cases n with
  | ofNat m => exact .inl (hnat m h)
  | negSucc m =>
    have hminus : (toString (Int.negSucc m)).toList = '-' :: (toString (m + 1)).toList := by
      simp [toString, Int.repr]
    rw [hminus] at h
    rcases List.mem_cons.1 h with rfl | h
    · exact .inr rfl
    · exact .inl (hnat (m + 1) h)

theorem IsNumeralChar.toNat_lt {c : Char} (h : IsNumeralChar c) : c.toNat < 64 := by
  rcases h with h | rfl
  · simp only [Char.isDigit, Bool.and_eq_true, decide_eq_true_eq] at h
    have h9 : c.toNat ≤ 57 := UInt32.le_iff_toNat_le.1 h.2
    omega
  · decide

/-- Below the letters a character is seen as it is. -/
theorem seen_of_lt {c : Char} (h : c.toNat < 64) : seen c = c := by
  have hread : readable c = c := if_neg (by rintro (rfl | rfl) <;> revert h <;> decide)
  have hfold : ¬ ('A' ≤ c ∧ c ≤ 'Z') := by
    rintro ⟨hA, -⟩
    have hA : 65 ≤ c.toNat := UInt32.le_iff_toNat_le.1 hA
    omega
  rw [seen, hread, foldCase, if_neg hfold]

/-- A capital letter becomes the small one, 32 places further on. -/
theorem toNat_foldCase_of_upper {c : Char} (h : 'A' ≤ c ∧ c ≤ 'Z') :
    65 ≤ c.toNat ∧ c.toNat ≤ 90 ∧ (foldCase c).toNat = c.toNat + 32 := by
  have hA : 65 ≤ c.toNat := UInt32.le_iff_toNat_le.1 h.1
  have hZ : c.toNat ≤ 90 := UInt32.le_iff_toNat_le.1 h.2
  have hvalid : (c.toNat + 32).isValidChar := .inl (by omega)
  refine ⟨hA, hZ, ?_⟩
  rw [foldCase, if_pos h, Char.ofNat, dif_pos hvalid]
  rfl

/-- What is seen below the letters is there. -/
theorem eq_of_seen_lt {c : Char} (h : (seen c).toNat < 64) : seen c = c := by
  rw [seen, readable] at h ⊢
  split at h
  · exact absurd h (by decide)
  · next hread =>
    rw [if_neg hread]
    rw [foldCase] at h ⊢
    split
    · next hupper =>
      obtain ⟨hA, -, hlower⟩ := toNat_foldCase_of_upper hupper
      rw [foldCase] at hlower
      omega
    · rfl

/-- Only a character of a numeral looks like one. -/
theorem seen_eq_seen_iff {c d : Char} (hd : IsNumeralChar d) : seen c = seen d ↔ c = d := by
  rw [seen_of_lt hd.toNat_lt]
  constructor
  · intro h
    have hc : (seen c).toNat < 64 := h ▸ hd.toNat_lt
    rw [← eq_of_seen_lt hc, h]
  · rintro rfl
    exact seen_of_lt hd.toNat_lt

theorem map_seen_eq_map_seen_iff {cs ds : List Char} (hds : ∀ d ∈ ds, IsNumeralChar d) :
    cs.map seen = ds.map seen ↔ cs.map id = ds.map id := by
  rw [eq_comm, eq_comm (a := cs.map id)]
  refine map_eq_map_iff_of_alike fun d hd c => ?_
  rw [eq_comm, seen_eq_seen_iff (hds d hd), eq_comm]
  rfl

/-- **A number is found by its own digits only.** -/
theorem occursAs_seen_toString_iff {value : String} {n : Int} :
    OccursAs seen value (toString n) ↔ OccursAs id value (toString n) := by
  have hchars : ∀ c ∈ upToNul (toString n).toList, IsNumeralChar c := fun c hc =>
    isNumeralChar_of_mem_toString ((List.takeWhile_prefix _).subset hc)
  rw [OccursAs, OccursAs]
  split
  · rw [map_isSuffix_map_iff, map_isSuffix_map_iff]
    refine exists_congr fun ds => and_congr_right fun hds => ?_
    exact map_seen_eq_map_seen_iff fun d hd => hchars d (hds.subset hd)
  · rw [← contains_iff_isInfix, ← contains_iff_isInfix]
    refine exists_congr fun before => exists_congr fun stretch => exists_congr fun after => ?_
    refine and_congr_right fun htext => map_seen_eq_map_seen_iff fun d hd => hchars d ?_
    rw [htext]
    exact List.mem_append_left _ (List.mem_append_right _ hd)

/-! ## Up to the case of ASCII letters -/

/-- Beyond the letters, folding the case makes no two characters the same. -/
theorem foldCase_eq_iff {c d : Char} (hd : 'z'.toNat < d.toNat) : foldCase c = d ↔ c = d := by
  by_cases hc : 'A' ≤ c ∧ c ≤ 'Z'
  · obtain ⟨-, hZ, hlower⟩ := toNat_foldCase_of_upper hc
    have hz : 'z'.toNat = 122 := rfl
    constructor
    · rintro rfl
      omega
    · rintro rfl
      omega
  · rw [foldCase, if_neg hc]

/-- A character that nothing unreadable looks like is seen up to its case only. -/
theorem seen_eq_seen_iff_foldCase {c d : Char} (hc : c ∉ ['\uFFFD', '\uFFFE', '\uFFFF']) :
    seen c = seen d ↔ foldCase c = foldCase d := by
  simp only [List.mem_cons, List.not_mem_nil, or_false, not_or] at hc
  obtain ⟨hreplacement, hfffe, hffff⟩ := hc
  have hseen : seen c = foldCase c := by rw [seen, readable, if_neg (not_or.2 ⟨hfffe, hffff⟩)]
  rw [hseen]
  by_cases hd : d = '\uFFFE' ∨ d = '\uFFFF'
  · have hnot : ¬ foldCase c = '\uFFFD' := by
      rwa [foldCase_eq_iff (by decide)]
    have hseen : seen d = '\uFFFD' := by rcases hd with rfl | rfl <;> rfl
    have hne : ¬ foldCase c = foldCase d := by
      rcases hd with rfl | rfl
      · exact fun h => hfffe ((foldCase_eq_iff (by decide)).1 h)
      · exact fun h => hffff ((foldCase_eq_iff (by decide)).1 h)
    rw [hseen]
    exact iff_of_false hnot hne
  · rw [seen, readable, if_neg hd]

/-- Unless a value holds a replacement character, it is found up to the case of letters only. -/
theorem contains_seen_iff_foldCase {value text : List Char}
    (h : ∀ c ∈ value, c ∉ ['\uFFFD', '\uFFFE', '\uFFFF']) :
    Contains seen value text ↔ Contains foldCase value text := by
  have hmap : ∀ stretch : List Char, value.map seen = stretch.map seen ↔
      value.map foldCase = stretch.map foldCase := fun stretch =>
    map_eq_map_iff_of_alike fun c hc d => seen_eq_seen_iff_foldCase (h c hc)
  simp only [Contains, hmap]

/-! ## What the pattern of a value finds -/

/-- **The pattern of a value finds the value and nothing else.**

* Whatever it is that makes two characters the same, the texts that match the pattern are those
  that contain the value: `%`, `_` and `\` in it stand for themselves.
* `like` decides whether a text matches, where `seen` makes two characters the same: up to the case
  of ASCII letters, and with U+FFFE and U+FFFF as U+FFFD.  A value without these three is found
  up to the case of letters only.
* A value that holds U+0000 counts up to there, and has to end the text. -/
theorem like_wildcard_iff_contains {value text : String} (htext : '\x00' ∉ text.toList) :
    (∀ look, Matches look text.toList (wildcard value).toList ↔
      Contains look value.toList text.toList) ∧
    ('\x00' ∉ value.toList →
      (like text (wildcard value) = true ↔ Matches seen text.toList (wildcard value).toList) ∧
      (like text (wildcard value) = true ↔ Contains seen value.toList text.toList) ∧
      ((∀ c ∈ value.toList, c ∉ ['\uFFFD', '\uFFFE', '\uFFFF']) →
        (like text (wildcard value) = true ↔ Contains foldCase value.toList text.toList))) ∧
    ('\x00' ∈ value.toList →
      (like text (wildcard value) = true ↔
        ∃ stretch, stretch <:+ text.toList ∧
          (upToNul value.toList).map seen = stretch.map seen)) := by
  have htext' : upToNul text.toList = text.toList := upToNul_of_not_mem htext
  refine ⟨fun look => matches_wildcard_iff, ?_, ?_⟩
  · intro hvalue
    have hpattern : upToNul (wildcard value).toList = (wildcard value).toList := by
      refine upToNul_of_not_mem ?_
      simp [toList_wildcard, mem_escapeSpecial_nul, hvalue]
    have hmatches : like text (wildcard value) = true ↔
        Matches seen text.toList (wildcard value).toList := by
      rw [like_iff_matches, htext', hpattern]
    have hcontains : like text (wildcard value) = true ↔
        Contains seen value.toList text.toList := hmatches.trans matches_wildcard_iff
    exact ⟨hmatches, hcontains, fun h => hcontains.trans (contains_seen_iff_foldCase h)⟩
  · intro hvalue
    rw [like_wildcard_iff, OccursAs, if_pos hvalue, htext', map_isSuffix_map_iff]

/-- The value `%_\` has a pattern in which every character is escaped. -/
theorem like_wildcard_iff_contains_special :
    '\x00' ∉ "50%_\\ off".toList ∧ '\x00' ∉ "%_\\ O".toList ∧
      (∀ c ∈ "%_\\ O".toList, c ∉ ['\uFFFD', '\uFFFE', '\uFFFF']) ∧
      like "50%_\\ off" (wildcard "%_\\ O") = true := by
  refine ⟨by decide, by decide, by simp, ?_⟩
  refine ((like_wildcard_iff_contains (by decide)).2.1 (by decide)).2.2 (by simp) |>.2 ?_
  exact ⟨"50".toList, "%_\\ o".toList, "ff".toList, by decide, by decide⟩

/-- U+FFFE is found in a text that holds U+FFFD, which does not contain it. -/
theorem like_wildcard_inexact :
    ¬ ∀ value text : String, '\x00' ∉ value.toList → '\x00' ∉ text.toList →
      (like text (wildcard value) = true ↔ Contains foldCase value.toList text.toList) := by
  intro h
  have hfound : like "R\uFFFDin" (wildcard "r\uFFFEi") = true := by decide
  obtain ⟨before, stretch, after, htext, hlook⟩ :=
    (h "r\uFFFEi" "R\uFFFDin" (by decide) (by decide)).1 hfound
  have hmem : '\uFFFE' ∈ stretch.map foldCase := by
    rw [← hlook]
    decide
  have hnot : '\uFFFE' ∉ "R\uFFFDin".toList.map foldCase := by decide
  refine hnot ?_
  rw [htext, List.map_append, List.map_append]
  exact List.mem_append_left _ (List.mem_append_right _ hmem)

end Text
end Fonoteca
