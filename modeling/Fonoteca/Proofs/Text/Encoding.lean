import Fonoteca.Path
import Fonoteca.Proofs.Text.ByteOrder
import Mathlib.Data.List.Infix

/-!
# Reading back what was written in UTF-8

The bytes of a text are read as this text, with nothing to repair, so a text is as good as its bytes
as far as it goes.

* **`Utf8.decodeLossy_encode`** : reading undoes writing.  The reader goes through the two, three or
  four bytes of a character and ends between characters (`Utf8.pieces_encodeChar`).
* `Utf8.encode_append` and `Utf8.encode_injective` follow.
* **`Utf8.decode?_eq_some_iff`** : writing undoes reading, so the bytes that are a text are those of
  the text.  What is read as a character begins with its bytes (`Utf8.of_pieces_cons`).
* `Path.display_ofString` : so the path that a text spells is shown as the text.
* `Utf8.getLast?_of_encode_isSuffix` : where the bytes of a text end in those of another, the texts
  end in the same character, for no character's bytes end in those of another.
-/

set_option autoImplicit false

namespace Fonoteca
namespace Text
namespace Utf8

/-! ## One byte -/

theorem toNat_ofNat_byte {n : Nat} (h : n < 256) : (UInt8.ofNat n).toNat = n :=
  UInt8.toNat_ofNat_of_lt h

/-- A byte that continues a character. -/
theorem piecesFrom_owing {more bits n : Nat} {low high : UInt8} (hlow : low.toNat ≤ n)
    (hhigh : n ≤ high.toNat) (rest : Bytes) :
    piecesFrom (.owing more low high bits) (UInt8.ofNat n :: rest) =
      if more ≤ 1 then some (Char.ofNat (bits * 64 + (n - 0x80))) :: piecesFrom .start rest
      else piecesFrom (.owing (more - 1) 0x80 0xBF (bits * 64 + (n - 0x80))) rest := by
  have hn : (UInt8.ofNat n).toNat = n := toNat_ofNat_byte (by have := high.toNat_lt; omega)
  have hfits : low ≤ UInt8.ofNat n ∧ UInt8.ofNat n ≤ high := by
    rw [UInt8.le_iff_toNat_le, UInt8.le_iff_toNat_le, hn]
    exact ⟨hlow, hhigh⟩
  rw [piecesFrom, feed, if_pos hfits, hn]
  split <;> rfl

/-- The first byte of a character, by its number. -/
theorem first_ofNat {n : Nat} (h : n < 256) :
    first (UInt8.ofNat n) =
      if n ≤ 0x7F then ([some (Char.ofNat n)], .start)
      else if 0xC2 ≤ n ∧ n ≤ 0xDF then ([], .owing 1 0x80 0xBF (n - 0xC0))
      else if n = 0xE0 then ([], .owing 2 0xA0 0xBF 0)
      else if n = 0xED then ([], .owing 2 0x80 0x9F 0xD)
      else if 0xE1 ≤ n ∧ n ≤ 0xEF then ([], .owing 2 0x80 0xBF (n - 0xE0))
      else if n = 0xF0 then ([], .owing 3 0x90 0xBF 0)
      else if 0xF1 ≤ n ∧ n ≤ 0xF3 then ([], .owing 3 0x80 0xBF (n - 0xF0))
      else if n = 0xF4 then ([], .owing 3 0x80 0x8F 4)
      else ([none], .start) := by
  simp only [first, UInt8.le_iff_toNat_le, ← UInt8.toNat_inj, toNat_ofNat_byte h]
  rfl

theorem piecesFrom_start_cons (b : UInt8) (bs : Bytes) :
    piecesFrom .start (b :: bs) = (first b).1 ++ piecesFrom (first b).2 bs :=
  rfl

/-! ## One character -/

/-- The first byte of three says how many follow, and lets the second one pass. -/
theorem first_of_three {v : Nat} (hlow : 0x7FF < v) (hhigh : v ≤ 0xFFFF)
    (hvalid : v < 0xD800 ∨ 0xDFFF < v) :
    ∃ low high : UInt8, first (UInt8.ofNat (v / 4096 % 16 + 224)) =
        ([], .owing 2 low high (v / 4096)) ∧
      low.toNat ≤ v / 64 % 64 + 128 ∧ v / 64 % 64 + 128 ≤ high.toNat := by
  rw [first_ofNat (by omega), if_neg (by omega), if_neg (by omega)]
  split
  · next h => exact ⟨0xA0, 0xBF, by rw [show v / 4096 = 0 by omega], by change 0xA0 ≤ _; omega,
      by change _ ≤ 0xBF; omega⟩
  split
  · next h => exact ⟨0x80, 0x9F, by rw [show v / 4096 = 0xD by omega], by change 0x80 ≤ _; omega,
      by change _ ≤ 0x9F; omega⟩
  · rw [if_pos (by omega)]
    exact ⟨0x80, 0xBF, by rw [show v / 4096 % 16 + 224 - 0xE0 = v / 4096 by omega],
      by change 0x80 ≤ _; omega, by change _ ≤ 0xBF; omega⟩

/-- The first byte of four says how many follow, and lets the second one pass. -/
theorem first_of_four {v : Nat} (hlow : 0xFFFF < v) (hhigh : v < 0x110000) :
    ∃ low high : UInt8, first (UInt8.ofNat (v / 262144 % 8 + 240)) =
        ([], .owing 3 low high (v / 262144)) ∧
      low.toNat ≤ v / 4096 % 64 + 128 ∧ v / 4096 % 64 + 128 ≤ high.toNat := by
  rw [first_ofNat (by omega), if_neg (by omega), if_neg (by omega), if_neg (by omega),
    if_neg (by omega), if_neg (by omega)]
  split
  · next h => exact ⟨0x90, 0xBF, by rw [show v / 262144 = 0 by omega], by change 0x90 ≤ _; omega,
      by change _ ≤ 0xBF; omega⟩
  split
  · exact ⟨0x80, 0xBF, by rw [show v / 262144 % 8 + 240 - 0xF0 = v / 262144 by omega],
      by change 0x80 ≤ _; omega, by change _ ≤ 0xBF; omega⟩
  · rw [if_pos (by omega)]
    exact ⟨0x80, 0x8F, by rw [show v / 262144 = 4 by omega], by change 0x80 ≤ _; omega,
      by change _ ≤ 0x8F; omega⟩

/-- A byte with six bits of a character in it continues the character. -/
theorem piecesFrom_owing_sixBits {more bits : Nat} (n : Nat) (rest : Bytes) :
    piecesFrom (.owing more 0x80 0xBF bits) (UInt8.ofNat (n % 64 + 128) :: rest) =
      if more ≤ 1 then some (Char.ofNat (bits * 64 + n % 64)) :: piecesFrom .start rest
      else piecesFrom (.owing (more - 1) 0x80 0xBF (bits * 64 + n % 64)) rest := by
  rw [piecesFrom_owing (by change 0x80 ≤ _; omega) (by change _ ≤ 0xBF; omega),
    show n % 64 + 128 - 0x80 = n % 64 by omega]

/-- **A character is read from its bytes**, and the reader ends between characters. -/
theorem pieces_encodeChar (c : Char) (rest : Bytes) :
    pieces (String.utf8EncodeChar c ++ rest) = some c :: pieces rest := by
  have hc : c.val.toNat < 0x110000 := by rcases c.valid with h | h <;> omega
  have hvalid : c.val.toNat < 0xD800 ∨ 0xDFFF < c.val.toNat := c.valid.imp id And.left
  have hback : Char.ofNat c.val.toNat = c := Char.ofNat_toNat c
  rw [pieces, pieces, String.utf8EncodeChar]
  generalize c.val.toNat = v at hc hvalid hback ⊢
  split
  · next h =>
    rw [List.singleton_append, piecesFrom_start_cons, first_ofNat (by omega), if_pos h, hback]
    rfl
  split
  · rw [List.cons_append, piecesFrom_start_cons, first_ofNat (by omega), if_neg (by omega),
      if_pos (by omega), List.nil_append, List.singleton_append, piecesFrom_owing_sixBits,
      if_pos (by omega), show (v / 64 % 32 + 192 - 0xC0) * 64 + v % 64 = v by omega, hback]
  split
  · obtain ⟨low, high, hfirst, hlow, hhigh⟩ := first_of_three (by omega) (by omega) hvalid
    rw [List.cons_append, piecesFrom_start_cons, hfirst, List.nil_append, List.cons_append,
      piecesFrom_owing hlow hhigh, if_neg (by omega), List.singleton_append,
      piecesFrom_owing_sixBits, if_pos (by omega),
      show (v / 4096 * 64 + (v / 64 % 64 + 128 - 0x80)) * 64 + v % 64 = v by omega, hback]
  · obtain ⟨low, high, hfirst, hlow, hhigh⟩ := first_of_four (by omega) hc
    rw [List.cons_append, piecesFrom_start_cons, hfirst, List.nil_append, List.cons_append,
      piecesFrom_owing hlow hhigh, if_neg (by omega), List.cons_append, piecesFrom_owing_sixBits,
      if_neg (by omega), List.singleton_append, piecesFrom_owing_sixBits, if_pos (by omega),
      show ((v / 262144 * 64 + (v / 4096 % 64 + 128 - 0x80)) * 64 + v / 64 % 64) * 64 + v % 64 = v
        by omega, hback]

/-! ## Texts -/

theorem pieces_encodeChars (cs : List Char) : pieces (encodeChars cs) = cs.map some := by
  induction cs with
  | nil => rfl
  | cons c cs ih => rw [encodeChars_cons, pieces_encodeChar, ih, List.map_cons]

/-- **The bytes of a text are read as the text.** -/
@[simp] theorem decodeLossy_encode (s : String) : decodeLossy (encode s) = s := by
  rw [decodeLossy, encode, pieces_encodeChars, List.map_map]
  simp [Function.comp_def]

theorem encode_injective {s t : String} (h : encode s = encode t) : s = t := by
  rw [← decodeLossy_encode s, h, decodeLossy_encode]

theorem encode_append (s t : String) : encode (s ++ t) = encode s ++ encode t := by
  simp [encode, encodeChars]

/-! ## Writing back what was read -/

theorem decode?_eq_some_iff_pieces {bs : Bytes} {s : String} :
    decode? bs = some s ↔ pieces bs = s.toList.map some := by
  have hall : ∀ (ps : List (Option Char)) cs, ps.mapM id = some cs ↔ ps = cs.map some := by
    intro ps
    induction ps with
    | nil => intro cs; cases cs <;> simp
    | cons p ps ih =>
      intro cs
      cases p with
      | none => cases cs <;> simp
      | some c => cases cs <;> simp [Option.bind_eq_some_iff, ih, and_comm]
  rw [decode?, Option.map_eq_some_iff]
  constructor
  · rintro ⟨cs, hcs, rfl⟩
    rw [(hall _ _).1 hcs, String.toList_ofList]
  · intro h
    exact ⟨s.toList, (hall _ _).2 h, String.ofList_toList⟩

/-- A character that is read from inside on goes on with a byte in the bounds. -/
theorem of_piecesFrom_owing {more bits : Nat} {low high : UInt8} {bs : Bytes} {c : Char}
    {ps : List (Option Char)} (h : piecesFrom (.owing more low high bits) bs = some c :: ps) :
    ∃ n rest, bs = UInt8.ofNat n :: rest ∧ low.toNat ≤ n ∧ n ≤ high.toNat ∧
      if more ≤ 1 then c = Char.ofNat (bits * 64 + (n - 0x80)) ∧ pieces rest = ps
      else piecesFrom (.owing (more - 1) 0x80 0xBF (bits * 64 + (n - 0x80))) rest =
        some c :: ps := by
  cases bs with
  | nil => cases h
  | cons b rest =>
    rw [piecesFrom, feed] at h
    split at h
    · next hfits =>
      rw [UInt8.le_iff_toNat_le, UInt8.le_iff_toNat_le] at hfits
      refine ⟨b.toNat, rest, by rw [UInt8.ofNat_toNat], hfits.1, hfits.2, ?_⟩
      split
      · next hmore =>
        rw [if_pos hmore] at h
        exact ⟨(Option.some.inj (List.cons.inj h).1).symm, (List.cons.inj h).2⟩
      · next hmore =>
        rw [if_neg hmore] at h
        exact h
    · cases h

theorem val_ofNat {v : Nat} (h : v.isValidChar) : (Char.ofNat v).val.toNat = v := by
  rw [Char.ofNat, dif_pos h]
  rfl

theorem encodeChar_two {n₀ n₁ : Nat} (h₀ : 0xC2 ≤ n₀ ∧ n₀ ≤ 0xDF) (h₁ : 0x80 ≤ n₁ ∧ n₁ ≤ 0xBF) :
    String.utf8EncodeChar (Char.ofNat ((n₀ - 0xC0) * 64 + (n₁ - 0x80))) =
      [UInt8.ofNat n₀, UInt8.ofNat n₁] := by
  rw [String.utf8EncodeChar, val_ofNat (.inl (by omega))]
  generalize hv : (n₀ - 0xC0) * 64 + (n₁ - 0x80) = v
  rw [if_neg (by omega), if_pos (by omega), show v / 64 % 32 + 192 = n₀ by omega,
    show v % 64 + 128 = n₁ by omega]

theorem encodeChar_three {n₀ n₁ n₂ : Nat} (h₀ : 0xE0 ≤ n₀ ∧ n₀ ≤ 0xEF)
    (h₁ : 0x80 ≤ n₁ ∧ n₁ ≤ 0xBF) (h₂ : 0x80 ≤ n₂ ∧ n₂ ≤ 0xBF) (hlow : n₀ = 0xE0 → 0xA0 ≤ n₁)
    (hhigh : n₀ = 0xED → n₁ ≤ 0x9F) :
    String.utf8EncodeChar (Char.ofNat (((n₀ - 0xE0) * 64 + (n₁ - 0x80)) * 64 + (n₂ - 0x80))) =
      [UInt8.ofNat n₀, UInt8.ofNat n₁, UInt8.ofNat n₂] := by
  have hvalid : (((n₀ - 0xE0) * 64 + (n₁ - 0x80)) * 64 + (n₂ - 0x80)).isValidChar := by
    rw [Nat.isValidChar]
    omega
  rw [String.utf8EncodeChar, val_ofNat hvalid]
  generalize hv : ((n₀ - 0xE0) * 64 + (n₁ - 0x80)) * 64 + (n₂ - 0x80) = v
  rw [if_neg (by omega), if_neg (by omega), if_pos (by omega),
    show v / 4096 % 16 + 224 = n₀ by omega, show v / 64 % 64 + 128 = n₁ by omega,
    show v % 64 + 128 = n₂ by omega]

theorem encodeChar_four {n₀ n₁ n₂ n₃ : Nat} (h₀ : 0xF0 ≤ n₀ ∧ n₀ ≤ 0xF4)
    (h₁ : 0x80 ≤ n₁ ∧ n₁ ≤ 0xBF) (h₂ : 0x80 ≤ n₂ ∧ n₂ ≤ 0xBF) (h₃ : 0x80 ≤ n₃ ∧ n₃ ≤ 0xBF)
    (hlow : n₀ = 0xF0 → 0x90 ≤ n₁) (hhigh : n₀ = 0xF4 → n₁ ≤ 0x8F) :
    String.utf8EncodeChar (Char.ofNat
        ((((n₀ - 0xF0) * 64 + (n₁ - 0x80)) * 64 + (n₂ - 0x80)) * 64 + (n₃ - 0x80))) =
      [UInt8.ofNat n₀, UInt8.ofNat n₁, UInt8.ofNat n₂, UInt8.ofNat n₃] := by
  rw [String.utf8EncodeChar, val_ofNat (.inr (by omega))]
  generalize hv : (((n₀ - 0xF0) * 64 + (n₁ - 0x80)) * 64 + (n₂ - 0x80)) * 64 + (n₃ - 0x80) = v
  rw [if_neg (by omega), if_neg (by omega), if_neg (by omega),
    show v / 262144 % 8 + 240 = n₀ by omega, show v / 4096 % 64 + 128 = n₁ by omega,
    show v / 64 % 64 + 128 = n₂ by omega, show v % 64 + 128 = n₃ by omega]

/-- What remains of a character of three bytes behind the first. -/
theorem of_pieces_three {n₀ : Nat} (h₀ : 0xE0 ≤ n₀ ∧ n₀ ≤ 0xEF) {low high : UInt8}
    (hlow : 0x80 ≤ low.toNat ∧ (n₀ = 0xE0 → 0xA0 ≤ low.toNat))
    (hhigh : high.toNat ≤ 0xBF ∧ (n₀ = 0xED → high.toNat ≤ 0x9F)) {bs : Bytes} {c : Char}
    {ps : List (Option Char)}
    (h : piecesFrom (.owing 2 low high (n₀ - 0xE0)) bs = some c :: ps) :
    ∃ rest, UInt8.ofNat n₀ :: bs = String.utf8EncodeChar c ++ rest ∧ pieces rest = ps := by
  obtain ⟨n₁, bs, rfl, hlow₁, hhigh₁, h⟩ := of_piecesFrom_owing h
  rw [if_neg (by decide)] at h
  obtain ⟨n₂, bs, rfl, hlow₂, hhigh₂, h⟩ := of_piecesFrom_owing h
  rw [if_pos (by decide)] at h
  obtain ⟨hc, hrest⟩ := h
  change 0x80 ≤ n₂ at hlow₂
  change n₂ ≤ 0xBF at hhigh₂
  refine ⟨bs, ?_, hrest⟩
  rw [hc, encodeChar_three h₀ ⟨by omega, by omega⟩ ⟨hlow₂, hhigh₂⟩ (by omega) (by omega)]
  simp only [List.cons_append, List.nil_append]

/-- What remains of a character of four bytes behind the first. -/
theorem of_pieces_four {n₀ : Nat} (h₀ : 0xF0 ≤ n₀ ∧ n₀ ≤ 0xF4) {low high : UInt8}
    (hlow : 0x80 ≤ low.toNat ∧ (n₀ = 0xF0 → 0x90 ≤ low.toNat))
    (hhigh : high.toNat ≤ 0xBF ∧ (n₀ = 0xF4 → high.toNat ≤ 0x8F)) {bs : Bytes} {c : Char}
    {ps : List (Option Char)}
    (h : piecesFrom (.owing 3 low high (n₀ - 0xF0)) bs = some c :: ps) :
    ∃ rest, UInt8.ofNat n₀ :: bs = String.utf8EncodeChar c ++ rest ∧ pieces rest = ps := by
  obtain ⟨n₁, bs, rfl, hlow₁, hhigh₁, h⟩ := of_piecesFrom_owing h
  rw [if_neg (by decide)] at h
  obtain ⟨n₂, bs, rfl, hlow₂, hhigh₂, h⟩ := of_piecesFrom_owing h
  rw [if_neg (by decide)] at h
  obtain ⟨n₃, bs, rfl, hlow₃, hhigh₃, h⟩ := of_piecesFrom_owing h
  rw [if_pos (by decide)] at h
  obtain ⟨hc, hrest⟩ := h
  change 0x80 ≤ n₂ at hlow₂
  change n₂ ≤ 0xBF at hhigh₂
  change 0x80 ≤ n₃ at hlow₃
  change n₃ ≤ 0xBF at hhigh₃
  refine ⟨bs, ?_, hrest⟩
  rw [hc, encodeChar_four h₀ ⟨by omega, by omega⟩ ⟨hlow₂, hhigh₂⟩ ⟨hlow₃, hhigh₃⟩ (by omega)
    (by omega)]
  simp only [List.cons_append, List.nil_append]

/-- **A character that is read has been written**: the bytes begin with those of the character. -/
theorem of_pieces_cons {bs : Bytes} {c : Char} {ps : List (Option Char)}
    (h : pieces bs = some c :: ps) :
    ∃ rest, bs = String.utf8EncodeChar c ++ rest ∧ pieces rest = ps := by
  cases bs with
  | nil => cases h
  | cons b bs =>
    obtain ⟨n₀, hn, rfl⟩ : ∃ n, n < 256 ∧ b = UInt8.ofNat n :=
      ⟨b.toNat, b.toNat_lt, by rw [UInt8.ofNat_toNat]⟩
    rw [pieces, piecesFrom_start_cons, first_ofNat hn] at h
    split at h
    · next hascii =>
      obtain ⟨hc, hrest⟩ := List.cons.inj h
      refine ⟨bs, ?_, hrest⟩
      rw [← Option.some.inj hc, String.utf8EncodeChar, val_ofNat (.inl (by omega)), if_pos hascii]
      rfl
    split at h
    · next htwo =>
      obtain ⟨n₁, bs, rfl, hlow, hhigh, h⟩ := of_piecesFrom_owing h
      rw [if_pos (by decide)] at h
      refine ⟨bs, ?_, h.2⟩
      rw [h.1, encodeChar_two htwo ⟨hlow, hhigh⟩]
      simp only [List.cons_append, List.nil_append]
    split at h
    · next h₀ =>
      subst h₀
      exact of_pieces_three (by decide) (by decide) (by decide) h
    split at h
    · next h₀ =>
      subst h₀
      exact of_pieces_three (by decide) (by decide) (by decide) h
    split at h
    · next hne h₀ => exact of_pieces_three (by omega) ⟨by decide, by omega⟩ ⟨by decide, by omega⟩ h
    split at h
    · next h₀ =>
      subst h₀
      exact of_pieces_four (by decide) (by decide) (by decide) h
    split at h
    · next h₀ => exact of_pieces_four (by omega) ⟨by decide, by omega⟩ ⟨by decide, by omega⟩ h
    split at h
    · next h₀ =>
      subst h₀
      exact of_pieces_four (by decide) (by decide) (by decide) h
    · cases h

theorem piecesFrom_owing_ne_nil (more : Nat) (low high : UInt8) (bits : Nat) (bs : Bytes) :
    piecesFrom (.owing more low high bits) bs ≠ [] := by
  induction bs generalizing more low high bits with
  | nil => simp [piecesFrom]
  | cons b bs ih =>
    rw [piecesFrom, feed]
    split
    · dsimp only
      split
      · simp
      · simpa using ih _ _ _ _
    · simp

/-- The first byte of a character either is all of it or leaves bytes to come. -/
theorem first_ne (b : UInt8) : first b ≠ ([], .start) := by
  rw [first]
  split_ifs <;> simp

theorem pieces_eq_nil_iff {bs : Bytes} : pieces bs = [] ↔ bs = [] := by
  constructor
  · intro h
    cases bs with
    | nil => rfl
    | cons b bs =>
      rw [pieces, piecesFrom_start_cons] at h
      obtain ⟨hpieces, hrest⟩ := List.append_eq_nil_iff.1 h
      rcases hfirst : first b with ⟨ps, _ | ⟨more, low, high, bits⟩⟩
      · rw [hfirst] at hpieces
        exact absurd (hpieces ▸ hfirst) (first_ne b)
      · rw [hfirst] at hrest
        exact absurd hrest (piecesFrom_owing_ne_nil _ _ _ _ _)
  · rintro rfl
    rfl

/-- **Bytes are read as a text** if and only if they are the bytes of the text. -/
theorem decode?_eq_some_iff {bs : Bytes} {s : String} : decode? bs = some s ↔ encode s = bs := by
  rw [decode?_eq_some_iff_pieces]
  constructor
  · intro h
    rw [encode]
    generalize s.toList = cs at h
    induction cs generalizing bs with
    | nil => exact (pieces_eq_nil_iff.1 h).symm
    | cons c cs ih =>
      obtain ⟨rest, rfl, hrest⟩ := of_pieces_cons h
      rw [encodeChars_cons, ih hrest]
  · rintro rfl
    exact pieces_encodeChars _

/-! ## The last character -/

theorem encodeChars_concat (cs : List Char) (c : Char) :
    encodeChars (cs ++ [c]) = encodeChars cs ++ String.utf8EncodeChar c := by
  simp [encodeChars]

/-- The bytes of a character do not end in those of another. -/
theorem eq_of_encodeChar_isSuffix {c d : Char}
    (h : String.utf8EncodeChar c <:+ String.utf8EncodeChar d) : c = d := by
  obtain ⟨front, hfront⟩ := h
  cases front with
  | nil =>
    have hpieces := congrArg (fun bs => pieces (bs ++ [])) hfront
    simp only [List.nil_append, pieces_encodeChar] at hpieces
    simpa using hpieces
  | cons b front =>
    -- the first byte of the one would stand inside the other
    have hne : String.utf8EncodeChar c ≠ [] := String.utf8EncodeChar_ne_nil
    have hpos := List.length_pos_iff.2 hne
    have hlt : front.length + 1 < (String.utf8EncodeChar d).length := by
      rw [← hfront, List.length_append, List.length_cons]
      omega
    have hbyte : (String.utf8EncodeChar d)[front.length + 1].IsUTF8FirstByte := by
      have hget : (String.utf8EncodeChar d)[front.length + 1] =
          (String.utf8EncodeChar c)[0] := by
        simp [← hfront]
      rw [hget]
      exact UInt8.isUTF8FirstByte_getElem_utf8EncodeChar.2 rfl
    exact absurd (UInt8.isUTF8FirstByte_getElem_utf8EncodeChar.1 hbyte) (by omega)

/-- **Bytes that end in those of a text** are those of a text that ends in the same character. -/
theorem getLast?_of_encode_isSuffix {s t : String} {c : Char} (h : encode t <:+ encode s)
    (hc : t.toList.getLast? = some c) : s.toList.getLast? = some c := by
  obtain ⟨ts, hts⟩ := List.getLast?_eq_some_iff.1 hc
  have hbytes : String.utf8EncodeChar c <:+ encode s := by
    refine List.IsSuffix.trans ?_ h
    rw [encode, hts, encodeChars_concat]
    exact List.suffix_append _ _
  rcases List.eq_nil_or_concat s.toList with hs | ⟨ss, d, hs⟩
  · rw [encode, hs] at hbytes
    exact absurd (List.suffix_nil.1 hbytes) String.utf8EncodeChar_ne_nil
  · rw [List.concat_eq_append] at hs
    rw [encode, hs, encodeChars_concat] at hbytes
    have hcd : c = d := by
      rcases List.suffix_or_suffix_of_suffix hbytes (List.suffix_append _ _) with h | h
      · exact eq_of_encodeChar_isSuffix h
      · exact (eq_of_encodeChar_isSuffix h).symm
    rw [hs, hcd, List.getLast?_concat]

/-! ## Cutting a text -/

/-- **Bytes before the first byte of a character** are those of a text. -/
theorem exists_eq_encode_of_append {s : String} {xs ys : Bytes} {b : UInt8}
    (hb : b.IsUTF8FirstByte) (h : encode s = xs ++ b :: ys) : ∃ t, xs = encode t := by
  suffices ∀ cs : List Char, encodeChars cs = xs ++ b :: ys → ∃ ds, xs = encodeChars ds by
    obtain ⟨ds, hds⟩ := this s.toList h
    exact ⟨String.ofList ds, by rw [hds, encode, String.toList_ofList]⟩
  clear h
  intro cs hcs
  induction cs generalizing xs with
  | nil => simp [encodeChars] at hcs
  | cons c cs ih =>
    rw [encodeChars_cons] at hcs
    rcases List.append_eq_append_iff.1 hcs with ⟨more, rfl, hmore⟩ | ⟨more, hc, hmore⟩
    · obtain ⟨ds, rfl⟩ := ih hmore
      exact ⟨c :: ds, (encodeChars_cons c ds).symm⟩
    · cases more with
      | nil => exact ⟨[c], by simpa [encodeChars] using hc.symm⟩
      | cons b' more =>
        -- the byte would stand inside a character
        obtain rfl : b = b' := (List.cons.inj hmore).1
        have hlt : xs.length < (String.utf8EncodeChar c).length := by simp [hc]
        have hbyte : (String.utf8EncodeChar c)[xs.length].IsUTF8FirstByte := by
          simpa [hc] using hb
        have hzero := UInt8.isUTF8FirstByte_getElem_utf8EncodeChar.1 hbyte
        exact ⟨[], List.length_eq_zero_iff.1 hzero⟩

end Utf8
end Text

/-! ## Paths -/

namespace Path

@[simp] theorem display_ofString (s : String) : (ofString s).display = s :=
  Text.Utf8.decodeLossy_encode s

theorem ofString_inj {s t : String} : ofString s = ofString t ↔ s = t := by
  constructor
  · intro h
    rw [← display_ofString s, h, display_ofString]
  · rintro rfl
    rfl

end Path
end Fonoteca
