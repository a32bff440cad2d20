import Fonoteca.Proofs.Text.Rounding

/-!
# Literals that compare exactly

A literal is worked out as a binary number, which most literals are not.  Whole numbers do not
notice this if the literal is short.

* `Literal.IsShort` literals have at most 15 digits in front of the point, all digits counted, and
  at most 300 decimal places.
* `Agree x a` says that two numbers compare alike with all whole numbers.
* **`Literal.compareInt_binary`** : the binary number of a short literal agrees with the literal.
-/

set_option autoImplicit false

namespace Fonoteca
namespace Text

/-! ## Numbers that compare alike -/

/-- Two comparisons have the same outcome. -/
theorem compare_congr {α β : Type} [LinearOrder α] [LinearOrder β] {a b : α} {c d : β}
    (hlt : a < b ↔ c < d) (hgt : b < a ↔ d < c) : compare a b = compare c d := by
  rcases lt_trichotomy c d with h | h | h
  · rw [compare_lt_iff_lt.2 h, compare_lt_iff_lt.2 (hlt.2 h)]
  · have hab : a = b :=
      le_antisymm (le_of_not_gt (mt hgt.1 h.not_gt)) (le_of_not_gt (mt hlt.1 h.not_lt))
    rw [compare_eq_iff_eq.2 h, compare_eq_iff_eq.2 hab]
  · rw [compare_gt_iff_gt.2 h, compare_gt_iff_gt.2 (hgt.2 h)]

/-- Whole numbers lie on the same sides of both. -/
def Agree (x a : ℚ) : Prop :=
  ∀ n : ℤ, ((n : ℚ) < x ↔ (n : ℚ) < a) ∧ (x < n ↔ a < n)

namespace Agree

theorem refl (a : ℚ) : Agree a a :=
  fun _ => ⟨Iff.rfl, Iff.rfl⟩

theorem neg {x a : ℚ} (h : Agree x a) : Agree (-x) (-a) := by
  intro n
  obtain ⟨hlt, hgt⟩ := h (-n)
  push_cast at hlt hgt
  constructor
  · rw [lt_neg, hgt, lt_neg]
  · rw [neg_lt, hlt, neg_lt]

theorem compare_eq {x a : ℚ} (h : Agree x a) (n : ℤ) : compare (n : ℚ) x = compare (n : ℚ) a :=
  compare_congr (h n).1 (h n).2

/-- A number with decimal places of at most 15 digits has a distance to every whole number that
rounding does not cover. -/
theorem of_near {k n places : ℕ} {x : ℚ} (h : Near k x (n / 10 ^ places)) (hk : k ≤ 8192)
    (hn : n < 10 ^ 15) (hplaces : 0 < places) (h10 : n % 10 ≠ 0) : Agree x (n / 10 ^ places) := by
  have hkept : 1 - 1 / 10 ^ 15 < kept ^ k := by
    have hpow : (k : ℚ) / 2 ^ 64 ≤ 8192 / 2 ^ 64 := by
      have : (k : ℚ) ≤ 8192 := by exact_mod_cast hk
      gcongr
    have := one_sub_le_kept_pow k
    norm_num at hpow ⊢
    linarith
  have hpos : (0 : ℚ) < 10 ^ places := by positivity
  have hlow : n * kept ^ k ≤ x * 10 ^ places := by
    have := h.lower
    rwa [div_mul_eq_mul_div, div_le_iff₀ hpos] at this
  have hhigh : x * 10 ^ places * kept ^ k ≤ n := by
    have := h.upper
    rw [le_div_iff₀ hpos] at this
    linarith
  have hn : (n : ℚ) + 1 ≤ 10 ^ 15 := by exact_mod_cast hn
  have hn0 : (0 : ℚ) ≤ n := Nat.cast_nonneg' n
  generalize kept ^ k = p at *
  intro m
  -- the number is no whole number, so at least one unit of its last place is in between
  have hne : m * 10 ^ places ≠ n := by
    obtain ⟨q, rfl⟩ := Nat.exists_eq_succ_of_ne_zero hplaces.ne'
    intro heq
    rw [Nat.succ_eq_add_one, pow_succ, ← mul_assoc] at heq
    omega
  rcases lt_or_gt_of_ne hne with hm | hm
  · have hm : (m : ℚ) * 10 ^ places + 1 ≤ n := by exact_mod_cast hm
    have ha : (m : ℚ) < n / 10 ^ places := by
      rw [lt_div_iff₀ hpos]
      linarith
    have hx : (m : ℚ) < x := by
      refine lt_of_mul_lt_mul_right ?_ hpos.le
      nlinarith
    exact ⟨iff_of_true hx ha, iff_of_false hx.not_gt ha.not_gt⟩
  · have hm : (n : ℚ) + 1 ≤ m * 10 ^ places := by exact_mod_cast hm
    have ha : n / 10 ^ places < (m : ℚ) := by
      rw [div_lt_iff₀ hpos]
      linarith
    have hx : x < m := by
      refine lt_of_mul_lt_mul_right ?_ hpos.le
      nlinarith
    exact ⟨iff_of_false hx.not_gt ha.not_gt, iff_of_true hx ha⟩

end Agree

namespace Binary64

/-- Comparing with a binary number is comparing with what it stands for. -/
theorem compareInt_finite (n m e : ℤ) :
    compareInt n (.finite m e) = compare (n : ℚ) (m * 2 ^ e) := by
  rw [compareInt]
  dsimp only [Nat.pow_eq]
  split
  · next he =>
    obtain ⟨k, rfl⟩ := Int.eq_ofNat_of_zero_le he
    refine compare_congr ?_ ?_ <;>
    · rw [Int.toNat_natCast, zpow_natCast]
      exact_mod_cast Iff.rfl
  · next he =>
    obtain ⟨k, hk⟩ := Int.eq_ofNat_of_zero_le (show 0 ≤ -e by omega)
    obtain rfl : e = -k := by omega
    have hpos : (0 : ℚ) < 2 ^ k := by positivity
    rw [neg_neg, Int.toNat_natCast, zpow_neg, zpow_natCast, ← div_eq_mul_inv]
    refine compare_congr ?_ ?_
    · rw [lt_div_iff₀ hpos]
      exact_mod_cast Iff.rfl
    · rw [div_lt_iff₀ hpos]
      exact_mod_cast Iff.rfl

/-- A whole number of 53 bits is its own nearest number. -/
theorem nearestRatio_whole {n : ℕ} (hn : 0 < n) (hsmall : n < 2 ^ 53) :
    ∃ m e, nearestRatio n 1 = some (m, e) ∧ (m : ℚ) * 2 ^ e = n := by
  have hone : (1 : ℚ) ≤ n := by exact_mod_cast hn
  have hnormal : (2 : ℚ) ^ (-1022 : ℤ) ≤ n / (1 : ℕ) := by
    rw [Nat.cast_one, div_one]
    exact (zpow_le_one_of_nonpos₀ one_le_two (by norm_num)).trans hone
  have hlow := (lastBit_bounds hn one_pos hnormal).1
  rw [Nat.cast_one, div_one] at hlow
  have hsmall' : (n : ℚ) < 2 ^ (53 : ℤ) := by exact_mod_cast hsmall
  have he := (zpow_lt_zpow_iff_right₀ one_lt_two).1 (hlow.trans_lt hsmall')
  rw [nearestRatio, if_neg (by omega)]
  refine ⟨_, _, rfl, ?_⟩
  generalize lastBit n 1 = e at *
  obtain ⟨k, hk⟩ := Int.eq_ofNat_of_zero_le (show 0 ≤ -e by omega)
  obtain rfl : e = -k := by omega
  have hscale : scale n 1 (-k) = (n * 2 ^ k, 1) := by
    rw [scale]
    dsimp only [Nat.pow_eq]
    split
    · next hk =>
      obtain rfl : k = 0 := by omega
      simp
    · simp
  rw [hscale, roundEven_one, zpow_neg, zpow_natCast, Nat.cast_mul, Nat.cast_pow, Nat.cast_ofNat]
  field_simp

end Binary64

/-! ## From the digits to the binary number -/

namespace Extended

/-- A whole number of 53 bits stays as it is. -/
theorem toBinary64?_whole {n : ℕ} (hn : 0 < n) (hsmall : n < 2 ^ 53) :
    ∃ m e, (mk n 0).toBinary64? = some (m, e) ∧ (m : ℚ) * 2 ^ e = n := by
  simpa [toBinary64?] using Binary64.nearestRatio_whole hn hsmall

/-- The last rounding of a number of 64 bits. -/
theorem near_toBinary64? {x : Extended} (hnormal : (2 : ℚ) ^ (-1022 : ℤ) ≤ x.value)
    (hfinite : x.value < 2 ^ (1000 : ℤ)) :
    ∃ m e, x.toBinary64? = some (m, e) ∧ Near 4096 (m * 2 ^ e) x.value := by
  have hvalue : 0 < x.value := lt_of_lt_of_le (by positivity) hnormal
  obtain ⟨num, den, hden, hratio, hbinary⟩ : ∃ num den : ℕ, 0 < den ∧ (num : ℚ) / den = x.value ∧
      x.toBinary64? = Binary64.nearestRatio num den := by
    rw [toBinary64?]
    dsimp only [Nat.pow_eq]
    split
    · next he =>
      obtain ⟨k, hk⟩ := Int.eq_ofNat_of_zero_le he
      exact ⟨_, 1, one_pos, by simp [value, hk], rfl⟩
    · next he =>
      obtain ⟨k, hk⟩ := Int.eq_ofNat_of_zero_le (show 0 ≤ -x.exponent by omega)
      have hx : x.exponent = -k := by omega
      exact ⟨_, _, by positivity, by simp [value, hx, div_eq_mul_inv], rfl⟩
  have hnum : 0 < num := by
    refine Nat.pos_of_ne_zero fun h => ?_
    rw [← hratio, h, Nat.cast_zero, zero_div] at hvalue
    exact lt_irrefl 0 hvalue
  rw [hbinary, ← hratio]
  rw [← hratio] at hnormal hfinite
  exact Binary64.near_nearestRatio hnum hden hnormal hfinite

/-- A short number with decimal places, moved to its place and rounded. -/
theorem toBinary64?_move_agrees {n places : ℕ} (hn : n < 10 ^ 15) (h10 : n % 10 ≠ 0)
    (hpos : 0 < places) (hplaces : places ≤ 300) :
    ∃ m e, ((mk n 0).move fractionOfTen places).toBinary64? = some (m, e) ∧
      Agree (m * 2 ^ e) (n / 10 ^ places) := by
  have hn0 : 0 < n := Nat.pos_of_ne_zero fun h => h10 (by rw [h])
  have hnear := (near_move hn0 places).mono (by positivity)
    (show 2 * (places / 100 + places % 100 / 10 + places % 10) ≤ 42 by omega)
  generalize (mk n 0).move fractionOfTen places = x at *
  -- the number itself is far from the bounds of the range, and 42 roundings at most double it
  have hhalf : (1 : ℚ) / 2 ≤ kept ^ 42 :=
    le_trans (by norm_num) (one_sub_le_kept_pow 42)
  have hone : (1 : ℚ) ≤ n := by exact_mod_cast hn0
  have hn' : (n : ℚ) < 10 ^ 15 := by exact_mod_cast hn
  have hten : (1 : ℚ) ≤ 10 ^ places := one_le_pow₀ (by norm_num)
  have hsmall : (10 : ℚ) ^ places ≤ 2 ^ 1000 := by
    calc (10 : ℚ) ^ places ≤ 10 ^ 300 := pow_le_pow_right₀ (by norm_num) hplaces
      _ = (10 ^ 3) ^ 100 := by rw [← pow_mul]
      _ ≤ (2 ^ 10) ^ 100 := pow_le_pow_left₀ (by norm_num) (by norm_num) 100
      _ = 2 ^ 1000 := by rw [← pow_mul]
  have hnormal : (2 : ℚ) ^ (-1022 : ℤ) ≤ x.value := by
    calc (2 : ℚ) ^ (-1022 : ℤ) ≤ 2 ^ (-1001 : ℤ) := zpow_le_zpow_right₀ one_le_two (by norm_num)
      _ = 1 / 2 ^ 1000 * (1 / 2) := by
          rw [show (-1001 : ℤ) = -((1000 + 1 : ℕ) : ℤ) by norm_num, zpow_neg, zpow_natCast,
            pow_succ, mul_inv, one_div, one_div]
      _ ≤ n / 10 ^ places * kept ^ 42 := by gcongr
      _ ≤ x.value := hnear.lower
  have hfinite : x.value < 2 ^ (1000 : ℤ) := by
    have hx : 0 ≤ x.value := (hnear.pos (by positivity)).le
    have hupper : x.value * (1 / 2) ≤ n / 10 ^ places :=
      (mul_le_mul_of_nonneg_left hhalf hx).trans hnear.upper
    have hle : (n : ℚ) / 10 ^ places ≤ n := div_le_self (by positivity) hten
    calc x.value < 2 * 10 ^ 15 := by linarith
      _ < 2 ^ (100 : ℤ) := by norm_num
      _ ≤ 2 ^ (1000 : ℤ) := zpow_le_zpow_right₀ one_le_two (by norm_num)
  obtain ⟨m, e, hm, hround⟩ := near_toBinary64? hnormal hfinite
  exact ⟨m, e, hm, .of_near (hround.trans hnear) (by norm_num) hn hpos h10⟩

/-- Without a place to move by, a number stays as it is. -/
theorem move_zero (x : Extended) (power : ℕ → Extended) : x.move power 0 = x := by
  simp [move]

end Extended

namespace Literal

theorem le_foldl_digits (ds : List Char) (n : ℕ) :
    n ≤ ds.foldl (fun n d => 10 * n + Numeral.digitValue d) n := by
  induction ds generalizing n with
  | nil => exact le_rfl
  | cons d ds ih => exact le_trans (by omega) (ih (10 * n + Numeral.digitValue d))

/-- A short literal keeps all of its digits. -/
theorem significand_of_lt {ds : List Char} {n : ℕ}
    (h : ds.foldl (fun n d => 10 * n + Numeral.digitValue d) n < fullSize) :
    significand n ds = (ds.foldl (fun n d => 10 * n + Numeral.digitValue d) n, 0) := by
  induction ds generalizing n with
  | nil => rfl
  | cons d ds ih =>
    have hn := (le_foldl_digits (d :: ds) n).trans_lt h
    rw [significand, if_neg hn.not_ge]
    exact ih h

theorem scaleUp_of_lt {n k : ℕ} (h : n * 10 ^ k < scaledSize) : scaleUp n k = (n * 10 ^ k, 0) := by
  induction k generalizing n with
  | zero => simp [scaleUp]
  | succ k ih =>
    have hshift : 10 * n * 10 ^ k = n * 10 ^ (k + 1) := by ring
    have hn : n < scaledSize := lt_of_le_of_lt (Nat.le_mul_of_pos_right n (by positivity)) h
    rw [scaleUp, if_pos hn, ih (hshift ▸ h), hshift]

/-- What is taken from a number are zeros at its end, until there is none. -/
theorem scaleDown_spec (n k : ℕ) :
    ∃ n' left, scaleDown n k = (n', left) ∧ left ≤ k ∧ n = n' * 10 ^ (k - left) ∧
      (left = 0 ∨ n' % 10 ≠ 0) := by
  induction k generalizing n with
  | zero => exact ⟨n, 0, rfl, le_rfl, by simp, .inl rfl⟩
  | succ k ih =>
    rw [scaleDown]
    split
    · next h =>
      obtain ⟨n', left, heq, hle, hn, hlast⟩ := ih (n / 10)
      refine ⟨n', left, heq, by omega, ?_, hlast⟩
      rw [show k + 1 - left = k - left + 1 by omega, pow_succ, ← mul_assoc, ← hn]
      omega
    · next h => exact ⟨n, k + 1, rfl, le_rfl, by simp, .inr h⟩

/-- The magnitude of a short number agrees with the number. -/
theorem magnitude_agrees {n : ℕ} {places : ℤ} (hn : 0 < n) (hshort : n * 10 ^ places.toNat < 10 ^ 15)
    (hplaces : -300 ≤ places) :
    ∃ m e, magnitude n places = some (m, e) ∧ Agree (m * 2 ^ e) (n * 10 ^ places) := by
  rw [magnitude]
  split
  · next h =>
    obtain ⟨k, rfl⟩ := Int.eq_ofNat_of_zero_le h
    rw [Int.toNat_natCast] at hshort ⊢
    have hfit : n * 10 ^ k < scaledSize := hshort.trans (by decide)
    rw [scaleUp_of_lt hfit]
    dsimp only
    rw [Extended.move_zero]
    obtain ⟨m, e, hm, hvalue⟩ := Extended.toBinary64?_whole (n := n * 10 ^ k) (by positivity)
      (hshort.trans (by norm_num))
    refine ⟨m, e, hm, ?_⟩
    rw [hvalue]
    push_cast
    exact .refl _
  · next h =>
    obtain ⟨k, hk⟩ := Int.eq_ofNat_of_zero_le (show 0 ≤ -places by omega)
    obtain rfl : places = -k := by omega
    rw [Int.toNat_of_nonpos (by omega), pow_zero, mul_one] at hshort
    rw [neg_neg, Int.toNat_natCast]
    obtain ⟨n', left, hscale, hle, hn', hlast⟩ := scaleDown_spec n k
    have hn'pos : 0 < n' := Nat.pos_of_ne_zero (by rintro rfl; simp [hn'] at hn)
    have hn'le : n' ≤ n := hn' ▸ Nat.le_mul_of_pos_right n' (by positivity)
    have hvalue : (n : ℚ) * 10 ^ (-(k : ℤ)) = n' / 10 ^ left := by
      have hk : (10 : ℚ) ^ k = 10 ^ (k - left) * 10 ^ left := by
        rw [← pow_add, Nat.sub_add_cancel hle]
      rw [zpow_neg, zpow_natCast, hk, hn']
      push_cast
      field_simp
    rw [hscale, hvalue]
    dsimp only
    rcases Nat.eq_zero_or_pos left with rfl | hleft
    · rw [Extended.move_zero]
      obtain ⟨m, e, hm, heq⟩ := Extended.toBinary64?_whole hn'pos
        (lt_trans (hn'le.trans_lt hshort) (by norm_num))
      refine ⟨m, e, hm, ?_⟩
      rw [heq, pow_zero, div_one]
      exact .refl _
    · exact Extended.toBinary64?_move_agrees (hn'le.trans_lt hshort)
        (hlast.resolve_left hleft.ne') hleft (by omega)

/-- The number that a literal denotes. -/
def value (l : Literal) : ℚ :=
  (if l.negative then -1 else 1) * (l.coefficient * 10 ^ l.exponent)

/-- Literals below `10 ^ 15` in all of their digits, with 300 decimal places or fewer. -/
structure IsShort (l : Literal) : Prop where
  digits : l.coefficient * 10 ^ l.exponent.toNat < 10 ^ 15
  places : -300 ≤ l.exponent

/-- **A whole number compares with the binary number of a short literal as with the literal.** -/
theorem compareInt_binary {l : Literal} (h : l.IsShort) (n : ℤ) :
    l.binary.compareInt n = compare (n : ℚ) l.value := by
  have hcoefficient : l.coefficient < 10 ^ 15 :=
    lt_of_le_of_lt (Nat.le_mul_of_pos_right _ (by positivity)) h.digits
  have hdigits : significand 0 l.digits = (l.coefficient, 0) :=
    significand_of_lt (hcoefficient.trans (by decide))
  rw [binary, hdigits]
  dsimp only
  split
  · next hzero =>
    rw [Binary64.compareInt_finite, value, hzero]
    simp
  · next hzero =>
    rw [Nat.cast_zero, add_zero]
    obtain ⟨m, e, hm, hagree⟩ := magnitude_agrees (Nat.pos_of_ne_zero hzero) h.digits h.places
    rw [hm]
    dsimp only
    rw [Binary64.compareInt_finite, value]
    cases l.negative with
    | true =>
      have := hagree.neg.compare_eq n
      simpa using this
    | false =>
      have := hagree.compare_eq n
      simpa using this

end Literal

end Text
end Fonoteca
