import Fonoteca.Text.Utf8
import Mathlib.Tactic.Common

/-!
# The order of texts

Texts are ordered by the bytes of their UTF-8, the first difference deciding.  That is the order by
characters: a greater character has a greater first byte, or the same one and greater bytes behind.

* `Utf8.encode_lt_encode_iff` is the agreement of the two orders.
-/

set_option autoImplicit false

namespace Fonoteca
namespace Text
namespace Utf8

/-- A smaller character decides, whatever follows. -/
theorem utf8EncodeChar_append_lt {c d : Char} (h : c < d) (s t : Bytes) :
    String.utf8EncodeChar c ++ s < String.utf8EncodeChar d ++ t := by
  have hcd : c.val.toNat < d.val.toNat := UInt32.lt_iff_toNat_lt.1 h
  have hd : d.val.toNat < 0x110000 := by
    rcases d.valid with h | h <;> omega
  have hbyte : ∀ n, n < 256 → (UInt8.ofNat n).toNat = n := fun n hn => UInt8.toNat_ofNat_of_lt hn
  -- in base 64, the first digit that differs decides
  have h₁ : c.val.toNat / 64 < d.val.toNat / 64 ∨
      c.val.toNat / 64 = d.val.toNat / 64 ∧ c.val.toNat % 64 < d.val.toNat % 64 := by omega
  have h₂ : c.val.toNat / 64 < d.val.toNat / 64 → c.val.toNat / 4096 < d.val.toNat / 4096 ∨
      c.val.toNat / 4096 = d.val.toNat / 4096 ∧
        c.val.toNat / 64 % 64 < d.val.toNat / 64 % 64 := by omega
  have h₃ : c.val.toNat / 4096 < d.val.toNat / 4096 → c.val.toNat / 262144 < d.val.toNat / 262144 ∨
      c.val.toNat / 262144 = d.val.toNat / 262144 ∧
        c.val.toNat / 4096 % 64 < d.val.toNat / 4096 % 64 := by omega
  have h₄ : ∀ v, v < 0x110000 → v / 262144 % 8 = v / 262144 := fun v hv =>
    Nat.mod_eq_of_lt (by omega)
  have hc₄ := h₄ c.val.toNat (by omega)
  have hd₄ := h₄ d.val.toNat hd
  simp only [String.utf8EncodeChar]
  split_ifs <;>
    simp only [List.cons_append, List.nil_append, List.cons_lt_cons_iff, UInt8.lt_iff_toNat_lt,
      ← UInt8.toNat_inj] <;>
    simp (disch := omega) only [hbyte] <;>
    omega

theorem encodeChars_cons (c : Char) (cs : List Char) :
    encodeChars (c :: cs) = String.utf8EncodeChar c ++ encodeChars cs :=
  List.flatMap_cons

theorem append_lt_append_left {s t : Bytes} (p : Bytes) (h : s < t) : p ++ s < p ++ t := by
  induction p with
  | nil => exact h
  | cons b p ih => exact List.cons_lt_cons_iff.2 (.inr ⟨rfl, ih⟩)

theorem encodeChars_lt_of_lt {cs ds : List Char} (h : cs < ds) :
    encodeChars cs < encodeChars ds := by
  induction h with
  | @nil d ds =>
    have hne : String.utf8EncodeChar d ≠ [] := String.utf8EncodeChar_ne_nil
    rw [encodeChars_cons]
    cases hd : String.utf8EncodeChar d with
    | nil => exact absurd hd hne
    | cons b bs => exact List.nil_lt_cons b _
  | @rel c cs d ds hcd =>
    rw [encodeChars_cons, encodeChars_cons]
    exact utf8EncodeChar_append_lt hcd _ _
  | @cons c cs ds _ ih =>
    rw [encodeChars_cons, encodeChars_cons]
    exact append_lt_append_left _ ih

/-- **Ordering by bytes is ordering by characters.** -/
theorem encode_lt_encode_iff {s t : String} : encode s < encode t ↔ s < t := by
  rw [encode, encode, String.lt_iff]
  refine ⟨fun h => ?_, encodeChars_lt_of_lt⟩
  by_contra hst
  rcases List.le_iff_lt_or_eq.1 (List.not_lt.1 hst) with hts | hts
  · exact List.lt_asymm h (encodeChars_lt_of_lt hts)
  · rw [hts] at h
    exact List.lt_irrefl _ h

end Utf8
end Text
end Fonoteca
