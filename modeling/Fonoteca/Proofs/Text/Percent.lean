import Fonoteca.Proofs.Text.ByteOrder
import Fonoteca.Text.Percent

/-!
# Texts that percent decoding changes

* `Percent.HasEscape` says that in a text `%` stands in front of two hexadecimal digits somewhere.
* `Percent.length_decode_lt` : such a text is decoded as fewer bytes than it has.
* **`Percent.decode_eq_encodeChars_iff`** : all other texts, and only they, are decoded as the bytes
  that they have.
-/

set_option autoImplicit false

namespace Fonoteca
namespace Text
namespace Percent

open Utf8

variable {c d : Char} {cs : List Char}

/-- A digit of a hexadecimal number. -/
def IsHexDigit (c : Char) : Prop :=
  c.isDigit = true ∨ ('a' ≤ c ∧ c ≤ 'f') ∨ ('A' ≤ c ∧ c ≤ 'F')

theorem isSome_hexValue?_iff : (Numeral.hexValue? c).isSome = true ↔ IsHexDigit c := by
  rw [Numeral.hexValue?, IsHexDigit]
  split_ifs <;> simp_all

theorem isSome_byte?_iff : (byte? c d).isSome = true ↔ IsHexDigit c ∧ IsHexDigit d := by
  rw [← isSome_hexValue?_iff, ← isSome_hexValue?_iff, byte?]
  cases Numeral.hexValue? c <;> cases Numeral.hexValue? d <;> simp

/-- Two hexadecimal digits stand behind a `%` somewhere. -/
def HasEscape (cs : List Char) : Prop :=
  ∃ before c d after, cs = before ++ '%' :: c :: d :: after ∧ IsHexDigit c ∧ IsHexDigit d

theorem HasEscape.cons (h : HasEscape cs) (c : Char) : HasEscape (c :: cs) := by
  obtain ⟨before, d, e, after, rfl, hhex⟩ := h
  exact ⟨c :: before, d, e, after, rfl, hhex⟩

/-- Such a place is at the front or behind the first character. -/
theorem HasEscape.cases_cons (h : HasEscape (c :: cs)) :
    (c = '%' ∧ ∃ d e after, cs = d :: e :: after ∧ IsHexDigit d ∧ IsHexDigit e) ∨
      HasEscape cs := by
  obtain ⟨before, d, e, after, heq, hhex⟩ := h
  cases before with
  | nil =>
    obtain ⟨rfl, rfl⟩ := List.cons.inj heq
    exact .inl ⟨rfl, d, e, after, rfl, hhex⟩
  | cons b before => exact .inr ⟨before, d, e, after, (List.cons.inj heq).2, hhex⟩

theorem encodeChars_singleton_append (c : Char) (cs : List Char) :
    encodeChars [c] ++ encodeChars cs = encodeChars (c :: cs) := by
  rw [encodeChars, List.flatMap_singleton, encodeChars_cons]

theorem decode_of_not_hasEscape (h : ¬ HasEscape cs) : decode cs = encodeChars cs := by
  fun_induction decode cs with
  | case1 c d cs b hbyte =>
    exact absurd ⟨[], c, d, cs, rfl, isSome_byte?_iff.1 (by rw [hbyte]; rfl)⟩ h
  | case2 c d cs hbyte ih =>
    rw [ih fun hrest => h (hrest.cons '%'), encodeChars_singleton_append]
  | case3 c cs _ ih =>
    rw [ih fun hrest => h (hrest.cons c), encodeChars_singleton_append]
  | case4 => rfl

/-- Decoding makes no text longer, and one with such a place shorter. -/
theorem length_decode (cs : List Char) :
    (decode cs).length ≤ (encodeChars cs).length ∧
      (HasEscape cs → (decode cs).length < (encodeChars cs).length) := by
  fun_induction decode cs with
  | case1 c d cs b hbyte ih =>
    -- each of the three characters had a byte of its own
    have hpos : ∀ c, 0 < (String.utf8EncodeChar c).length := fun c =>
      List.length_pos_iff.2 String.utf8EncodeChar_ne_nil
    have hc := hpos c
    have hd := hpos d
    have hpercent := hpos '%'
    simp only [encodeChars_cons, List.length_append, List.length_cons]
    exact ⟨by omega, fun _ => by omega⟩
  | case2 c d cs hbyte ih =>
    rw [← encodeChars_singleton_append '%' (c :: d :: cs), List.length_append, List.length_append]
    refine ⟨Nat.add_le_add_left ih.1 _, fun h => Nat.add_lt_add_left (ih.2 ?_) _⟩
    refine h.cases_cons.resolve_left fun hfront => ?_
    obtain ⟨-, d', e', after, heq, hhex⟩ := hfront
    simp only [List.cons.injEq] at heq
    obtain ⟨rfl, rfl, -⟩ := heq
    exact absurd (isSome_byte?_iff.2 hhex) (by simp [hbyte])
  | case3 c cs hshape ih =>
    rw [← encodeChars_singleton_append c cs, List.length_append, List.length_append]
    refine ⟨Nat.add_le_add_left ih.1 _, fun h => Nat.add_lt_add_left (ih.2 ?_) _⟩
    refine h.cases_cons.resolve_left fun hfront => ?_
    obtain ⟨hpercent, d, e, after, heq, -⟩ := hfront
    exact hshape d e after hpercent heq
  | case4 =>
    refine ⟨Nat.le_refl _, ?_⟩
    rintro ⟨before, c, d, after, heq, -⟩
    simp at heq

theorem length_decode_le (cs : List Char) : (decode cs).length ≤ (encodeChars cs).length :=
  (length_decode cs).1

theorem length_decode_lt (h : HasEscape cs) : (decode cs).length < (encodeChars cs).length :=
  (length_decode cs).2 h

/-- **A text is decoded as its own bytes** if and only if no byte is encoded in it. -/
theorem decode_eq_encodeChars_iff : decode cs = encodeChars cs ↔ ¬ HasEscape cs := by
  refine ⟨fun heq h => ?_, decode_of_not_hasEscape⟩
  have hlt := length_decode_lt h
  rw [heq] at hlt
  exact Nat.lt_irrefl _ hlt

instance (cs : List Char) : Decidable (HasEscape cs) :=
  decidable_of_iff (decode cs ≠ encodeChars cs) (not_iff_comm.1 decode_eq_encodeChars_iff.symm)

end Percent
end Text
end Fonoteca
