import Fonoteca.Text.Amount
import Mathlib.Algebra.Order.Field.Power
import Mathlib.Algebra.Order.Ring.Pow
import Mathlib.Tactic.FieldSimp
import Mathlib.Tactic.Linarith
import Mathlib.Tactic.NormNum
import Mathlib.Tactic.Positivity
import Mathlib.Tactic.Ring

/-!
# What rounding does to a number

* `Near k x a` says that `k` roundings to 64 bits, each up or down, can lead from one number to the
  other.  Products of near numbers are near (`Near.mul`), so that one can count roundings.
* `Extended.near_round`, `Extended.near_times` and `Extended.near_move` count them for the numbers
  of 64 bits, `Binary64.near_nearestRatio` for the last rounding to 53 bits.
-/

set_option autoImplicit false

namespace Fonoteca
namespace Text

/-! ## Numbers that are near to each other -/

/-- What is left at least of a number that is rounded to 64 bits, as a part of it. -/
def kept : ℚ :=
  1 - 1 / 2 ^ 64

theorem kept_pos : 0 < kept := by norm_num [kept]

theorem kept_le_one : kept ≤ 1 := by norm_num [kept]

/-- Two numbers between which there are `k` roundings. -/
structure Near (k : ℕ) (x a : ℚ) : Prop where
  lower : a * kept ^ k ≤ x
  upper : x * kept ^ k ≤ a

namespace Near

variable {k l : ℕ} {x y a b : ℚ}

theorem refl (a : ℚ) : Near 0 a a :=
  ⟨by simp, by simp⟩

theorem pos (h : Near k x a) (ha : 0 < a) : 0 < x :=
  lt_of_lt_of_le (mul_pos ha (pow_pos kept_pos k)) h.lower

theorem mul (hx : Near k x a) (hy : Near l y b) (ha : 0 < a) (hb : 0 < b) :
    Near (k + l) (x * y) (a * b) where
  lower := by
    have hprod := mul_le_mul hx.lower hy.lower (by have := kept_pos; positivity) (hx.pos ha).le
    calc a * b * kept ^ (k + l) = a * kept ^ k * (b * kept ^ l) := by rw [pow_add]; ring
      _ ≤ x * y := hprod
  upper := by
    have hyl : 0 ≤ y * kept ^ l := mul_nonneg (hy.pos hb).le (pow_pos kept_pos l).le
    have hprod := mul_le_mul hx.upper hy.upper hyl ha.le
    calc x * y * kept ^ (k + l) = x * kept ^ k * (y * kept ^ l) := by rw [pow_add]; ring
      _ ≤ a * b := hprod

theorem trans (hx : Near k x y) (hy : Near l y a) : Near (k + l) x a where
  lower := by
    have hk := (pow_pos kept_pos k).le
    calc a * kept ^ (k + l) = a * kept ^ l * kept ^ k := by rw [pow_add]; ring
      _ ≤ y * kept ^ k := mul_le_mul_of_nonneg_right hy.lower hk
      _ ≤ x := hx.lower
  upper := by
    have hl := (pow_pos kept_pos l).le
    calc x * kept ^ (k + l) = x * kept ^ k * kept ^ l := by rw [pow_add]; ring
      _ ≤ y * kept ^ l := mul_le_mul_of_nonneg_right hx.upper hl
      _ ≤ a := hy.upper

/-- More roundings may lead to what fewer lead to. -/
theorem mono (h : Near k x a) (ha : 0 < a) (hkl : k ≤ l) : Near l x a where
  lower := by
    have hpow := pow_le_pow_of_le_one kept_pos.le kept_le_one hkl
    exact (mul_le_mul_of_nonneg_left hpow ha.le).trans h.lower
  upper := by
    have hpow := pow_le_pow_of_le_one kept_pos.le kept_le_one hkl
    exact (mul_le_mul_of_nonneg_left hpow (h.pos ha).le).trans h.upper

theorem scale (h : Near k x a) (hb : 0 ≤ b) : Near k (x * b) (a * b) where
  lower := by
    have := mul_le_mul_of_nonneg_right h.lower hb
    linarith
  upper := by
    have := mul_le_mul_of_nonneg_right h.upper hb
    linarith

end Near

/-- So many roundings keep at least this part of a number. -/
theorem one_sub_le_kept_pow (k : ℕ) : 1 - k / 2 ^ 64 ≤ kept ^ k := by
  have h := one_add_mul_le_pow (show (-2 : ℚ) ≤ -(1 / 2 ^ 64) by norm_num) k
  calc 1 - (k : ℚ) / 2 ^ 64 = 1 + k * -(1 / 2 ^ 64) := by ring
    _ ≤ (1 + -(1 / 2 ^ 64)) ^ k := h
    _ = kept ^ k := by rw [kept, ← sub_eq_add_neg]

/-- One rounding to 53 bits does not take more than this many roundings to 64 bits. -/
theorem kept_pow_le : kept ^ 4096 ≤ 1 - 1 / 2 ^ 53 := by
  have hbound := one_add_mul_le_pow (show (-2 : ℚ) ≤ 1 / (2 ^ 64 - 1) by norm_num) 4096
  have hinv : kept * (1 + 1 / (2 ^ 64 - 1)) = 1 := by norm_num [kept]
  have hone : kept ^ 4096 * (1 + 1 / (2 ^ 64 - 1)) ^ 4096 = 1 := by rw [← mul_pow, hinv, one_pow]
  have hle : kept ^ 4096 * (1 + (4096 : ℕ) * (1 / (2 ^ 64 - 1))) ≤ 1 :=
    (mul_le_mul_of_nonneg_left hbound (pow_pos kept_pos _).le).trans hone.le
  have hfactor : 1 ≤ (1 - 1 / 2 ^ 53) * (1 + (4096 : ℕ) * (1 / (2 ^ 64 - 1)) : ℚ) := by norm_num
  refine le_of_mul_le_mul_right (hle.trans hfactor) (by norm_num)

/-! ## Rounding to the nearest whole number -/

namespace Binary64

theorem roundEven_bounds (num : ℕ) {den : ℕ} (hden : 0 < den) :
    2 * num ≤ 2 * (roundEven num den * den) + den ∧
      2 * (roundEven num den * den) ≤ 2 * num + den := by
  have hdiv : num / den * den + num % den = num := Nat.div_add_mod' num den
  have hmod : num % den < den := Nat.mod_lt num hden
  have hsucc : (num / den + 1) * den = num / den * den + den := Nat.succ_mul _ _
  rw [roundEven]
  split_ifs <;> omega

theorem roundEven_one (num : ℕ) : roundEven num 1 = num := by
  simp [roundEven, Nat.mod_one]

/-- Rounding a number of at least so many bits changes a small part of it. -/
theorem roundEven_ratio {num den b : ℕ} (hden : 0 < den) (h : 2 ^ b * den ≤ num) :
    (num : ℚ) * (1 - 1 / 2 ^ (b + 1)) ≤ roundEven num den * den ∧
      (roundEven num den * den : ℚ) * (1 - 1 / 2 ^ (b + 1)) ≤ num := by
  obtain ⟨hlow, hhigh⟩ := roundEven_bounds num hden
  have hlow : (2 * num : ℚ) ≤ 2 * (roundEven num den * den) + den := by exact_mod_cast hlow
  have hhigh : (2 * (roundEven num den * den) : ℚ) ≤ 2 * num + den := by exact_mod_cast hhigh
  have hden : (den : ℚ) ≤ num / 2 ^ b := by
    rw [le_div_iff₀ (by positivity), mul_comm]
    exact_mod_cast h
  have hnum : (0 : ℚ) ≤ num := by positivity
  have hhalf : (num : ℚ) / 2 ^ b = 2 * (num * (1 / 2 ^ (b + 1))) := by rw [pow_succ]; ring
  have hw : (0 : ℚ) ≤ 1 / 2 ^ (b + 1) := by positivity
  have hw1 : (1 : ℚ) / 2 ^ (b + 1) ≤ 1 := by
    rw [div_le_one (by positivity)]
    exact_mod_cast Nat.one_le_two_pow
  generalize (1 : ℚ) / 2 ^ (b + 1) = w at *
  constructor
  · linarith
  · have hle : (roundEven num den * den : ℚ) ≤ num * (1 + w) := by linarith
    have hprod := mul_le_mul_of_nonneg_right hle (sub_nonneg.2 hw1)
    have hsq : 0 ≤ (num : ℚ) * (w * w) := by positivity
    linarith

end Binary64

/-! ## Numbers of 64 bits -/

namespace Extended

/-- The number itself. -/
def value (x : Extended) : ℚ :=
  x.mantissa * 2 ^ x.exponent

/-- Rounding a quotient of 64 bits or more, or a whole number. -/
theorem near_roundEven {num den : ℕ} (hden : 0 < den) (h : 2 ^ 63 * den ≤ num ∨ den = 1) :
    Near 1 (Binary64.roundEven num den * den) num := by
  rcases h with h | rfl
  · have hratio := Binary64.roundEven_ratio hden h
    have hkept : kept ^ 1 = 1 - 1 / 2 ^ (63 + 1) := by norm_num [kept]
    exact ⟨hkept ▸ hratio.1, hkept ▸ hratio.2⟩
  · rw [Binary64.roundEven_one, Nat.cast_one, mul_one]
    have hkept : (num : ℚ) * kept ^ 1 ≤ num := by
      have := mul_le_mul_of_nonneg_left kept_le_one (Nat.cast_nonneg' num : (0 : ℚ) ≤ num)
      linarith
    exact ⟨hkept, hkept⟩

theorem near_round {m : ℕ} (hm : 0 < m) (e : ℤ) : Near 1 (round m e).value (m * 2 ^ e) := by
  have hlog : 2 ^ Nat.log2 m ≤ m := Nat.log2_self_le hm.ne'
  have hsize : 2 ^ 63 * 2 ^ (Nat.log2 m + 1 - precision) ≤ m ∨
      2 ^ (Nat.log2 m + 1 - precision) = 1 := by
    by_cases h : Nat.log2 m + 1 ≤ precision
    · exact .inr (by rw [Nat.sub_eq_zero_of_le h, pow_zero])
    · have hexp : 63 + (Nat.log2 m + 1 - precision) = Nat.log2 m := by
        rw [precision] at h ⊢
        omega
      exact .inl (by rwa [← pow_add, hexp])
  have hden : 0 < 2 ^ (Nat.log2 m + 1 - precision) := by positivity
  have hnear := (near_roundEven hden hsize).scale (show (0 : ℚ) ≤ 2 ^ e by positivity)
  convert hnear using 1
  rw [value, round]
  dsimp only [Nat.pow_eq]
  rw [zpow_add₀ two_ne_zero, zpow_natCast, Nat.cast_pow, Nat.cast_ofNat]
  ring

theorem near_times {x y : Extended} {k l : ℕ} {a b : ℚ} (hx : Near k x.value a)
    (hy : Near l y.value b) (ha : 0 < a) (hb : 0 < b) :
    Near (k + l + 1) (x.times y).value (a * b) := by
  have hpos : ∀ {z : Extended}, 0 < z.value → 0 < z.mantissa := by
    intro z hz
    refine Nat.pos_of_ne_zero fun h => ?_
    rw [value, h, Nat.cast_zero, zero_mul] at hz
    exact lt_irrefl 0 hz
  have hm : 0 < x.mantissa * y.mantissa := Nat.mul_pos (hpos (hx.pos ha)) (hpos (hy.pos hb))
  have hround := near_round hm (x.exponent + y.exponent)
  have hprod : ((x.mantissa * y.mantissa : ℕ) : ℚ) * 2 ^ (x.exponent + y.exponent) =
      x.value * y.value := by
    rw [value, value, zpow_add₀ two_ne_zero, Nat.cast_mul]
    ring
  rw [hprod] at hround
  have h := hround.trans (hx.mul hy ha hb)
  rwa [Nat.add_comm] at h

theorem near_fractionOfTen (n : ℕ) : Near 1 (fractionOfTen n).value ((1 / 10) ^ n) := by
  have hlog : 10 ^ n < 2 ^ (Nat.log2 (10 ^ n) + 1) := Nat.lt_log2_self
  have hsize : 2 ^ 63 * 10 ^ n ≤ 2 ^ (precision + Nat.log2 (10 ^ n)) := by
    rw [precision, show 64 + Nat.log2 (10 ^ n) = 63 + (Nat.log2 (10 ^ n) + 1) by omega, pow_add]
    exact Nat.mul_le_mul_left _ hlog.le
  have hden : 0 < 10 ^ n := by positivity
  have hnear := (near_roundEven hden (.inl hsize)).scale
    (show (0 : ℚ) ≤ (1 / 10) ^ n / 2 ^ (precision + Nat.log2 (10 ^ n)) by positivity)
  convert hnear using 1
  · rw [value, fractionOfTen]
    dsimp only [Nat.pow_eq]
    rw [zpow_neg, zpow_natCast, Nat.cast_pow, Nat.cast_ofNat, one_div, inv_pow]
    field_simp
  · rw [Nat.cast_pow, Nat.cast_ofNat]
    field_simp

attribute [local irreducible] times in
@[simp] theorem timesRepeated_zero (x y : Extended) : x.timesRepeated y 0 = x :=
  rfl

attribute [local irreducible] times in
theorem timesRepeated_succ (x y : Extended) (n : ℕ) :
    x.timesRepeated y (n + 1) = (x.times y).timesRepeated y n :=
  rfl

theorem near_timesRepeated {x y : Extended} {k : ℕ} {a b : ℚ} (hx : Near k x.value a)
    (hy : Near 1 y.value b) (ha : 0 < a) (hb : 0 < b) (n : ℕ) :
    Near (k + 2 * n) (x.timesRepeated y n).value (a * b ^ n) := by
  induction n generalizing x k a with
  | zero => simpa using hx
  | succ n ih =>
    have h := ih (near_times hx hy ha hb) (mul_pos ha hb)
    rw [timesRepeated_succ, pow_succ', ← mul_assoc]
    exact h.mono (by positivity) (by omega)

/-- Moving a number by some places to the right. -/
theorem near_move {n : ℕ} (hn : 0 < n) (places : ℕ) :
    Near (2 * (places / 100 + places % 100 / 10 + places % 10))
      ((Extended.mk n 0).move fractionOfTen places).value (n / 10 ^ places) := by
  have hn : (0 : ℚ) < n := by exact_mod_cast hn
  have hstart : Near 0 (Extended.mk n 0).value n := by
    simpa [value] using Near.refl (n : ℚ)
  have h := near_timesRepeated (near_timesRepeated (near_timesRepeated hstart
    (near_fractionOfTen 100) hn (by positivity) (places / 100)) (near_fractionOfTen 10)
    (by positivity) (by positivity) (places % 100 / 10)) (near_fractionOfTen 1)
    (by positivity) (by positivity) (places % 10)
  have hplaces : 100 * (places / 100) + 10 * (places % 100 / 10) + 1 * (places % 10) = places := by
    omega
  rw [move]
  convert h using 1
  · ring
  · rw [← pow_mul, ← pow_mul, ← pow_mul, mul_assoc, mul_assoc, ← pow_add, ← pow_add, ← add_assoc,
      hplaces, one_div, inv_pow, div_eq_mul_inv]

end Extended

/-! ## Numbers of 53 bits -/

namespace Binary64

theorem scale_pos (num : ℕ) {den : ℕ} (hden : 0 < den) (e : ℤ) : 0 < (scale num den e).2 := by
  rw [scale]
  split
  · exact Nat.mul_pos hden (Nat.pow_pos two_pos)
  · exact hden

/-- A scaled fraction is the fraction divided by the power of two. -/
theorem scale_ratio (num : ℕ) {den : ℕ} (hden : 0 < den) (e : ℤ) :
    ((scale num den e).1 : ℚ) / (scale num den e).2 = num / den / 2 ^ e := by
  have hden : (den : ℚ) ≠ 0 := by exact_mod_cast hden.ne'
  rw [scale]
  dsimp only [Nat.pow_eq]
  split
  · next he =>
    obtain ⟨k, rfl⟩ := Int.eq_ofNat_of_zero_le he
    simp [div_div]
  · next he =>
    obtain ⟨k, hk⟩ := Int.eq_ofNat_of_zero_le (show 0 ≤ -e by omega)
    obtain rfl : e = -k := by omega
    simp [div_eq_mul_inv]
    ring

/-- The last bit is chosen so that 53 bits are kept. -/
theorem lastBit_bounds {num den : ℕ} (hnum : 0 < num) (hden : 0 < den)
    (hnormal : (2 : ℚ) ^ (-1022 : ℤ) ≤ num / den) :
    (2 : ℚ) ^ (lastBit num den + 52) ≤ num / den ∧
      (num : ℚ) / den < 2 ^ (lastBit num den + 53) := by
  have hden' : (0 : ℚ) < den := by exact_mod_cast hden
  have hnumlow : (2 : ℚ) ^ Nat.log2 num ≤ num := by exact_mod_cast Nat.log2_self_le hnum.ne'
  have hnumhigh : (num : ℚ) < 2 ^ (Nat.log2 num + 1) := by exact_mod_cast Nat.lt_log2_self
  have hdenlow : (2 : ℚ) ^ Nat.log2 den ≤ den := by exact_mod_cast Nat.log2_self_le hden.ne'
  have hdenhigh : (den : ℚ) < 2 ^ (Nat.log2 den + 1) := by exact_mod_cast Nat.lt_log2_self
  rw [lastBit]
  generalize hguess : (Nat.log2 num : ℤ) - (Nat.log2 den : ℤ) - 53 = guess
  have hlow : (2 : ℚ) ^ (guess + 52) ≤ num / den := by
    rw [le_div_iff₀ hden']
    calc (2 : ℚ) ^ (guess + 52) * den
        ≤ 2 ^ (guess + 52) * 2 ^ (Nat.log2 den + 1) := by gcongr
      _ = 2 ^ Nat.log2 num := by
          rw [← zpow_natCast, ← zpow_natCast, ← zpow_add₀ two_ne_zero]
          congr 1
          push_cast
          omega
      _ ≤ num := hnumlow
  have hhigh : (num : ℚ) / den < 2 ^ (guess + 54) := by
    rw [div_lt_iff₀ hden']
    calc (num : ℚ) < 2 ^ (Nat.log2 num + 1) := hnumhigh
      _ = 2 ^ (guess + 54) * 2 ^ Nat.log2 den := by
          rw [← zpow_natCast, ← zpow_natCast, ← zpow_add₀ two_ne_zero]
          congr 1
          push_cast
          omega
      _ ≤ 2 ^ (guess + 54) * den := by gcongr
  have hpos := scale_pos num hden guess
  have hpos' : (0 : ℚ) < (scale num den guess).2 := by exact_mod_cast hpos
  have hcut : (scale num den guess).2 * Nat.pow 2 53 ≤ (scale num den guess).1 ↔
      (2 : ℚ) ^ (guess + 53) ≤ num / den := by
    have hratio := scale_ratio num hden guess
    rw [zpow_add₀ two_ne_zero, ← le_div_iff₀' (by positivity), ← hratio, le_div_iff₀ hpos',
      mul_comm]
    norm_cast
  have hnotless : ∀ raw : ℤ, (num : ℚ) / den < 2 ^ (raw + 53) → -1074 ≤ raw := by
    intro raw hraw
    have hlt := (zpow_lt_zpow_iff_right₀ one_lt_two).1 (hnormal.trans_lt hraw)
    omega
  split
  · next h =>
    have h := hcut.1 h
    rw [show guess + 54 = guess + 1 + 53 by ring] at hhigh
    rw [show guess + 53 = guess + 1 + 52 by ring] at h
    rw [max_eq_left (hnotless _ hhigh)]
    exact ⟨h, hhigh⟩
  · next h =>
    have h := lt_of_not_ge (mt hcut.2 h)
    rw [max_eq_left (hnotless _ h)]
    exact ⟨hlow, h⟩

/-- **The nearest number of 53 bits** is near, where it is neither too large nor too small for all
of its bits. -/
theorem near_nearestRatio {num den : ℕ} (hnum : 0 < num) (hden : 0 < den)
    (hnormal : (2 : ℚ) ^ (-1022 : ℤ) ≤ num / den) (hfinite : (num : ℚ) / den < 2 ^ (1000 : ℤ)) :
    ∃ m e, nearestRatio num den = some (m, e) ∧ Near 4096 (m * 2 ^ e) (num / den) := by
  obtain ⟨hlow, hhigh⟩ := lastBit_bounds hnum hden hnormal
  have hpos := scale_pos num hden (lastBit num den)
  have hratio := scale_ratio num hden (lastBit num den)
  have he : lastBit num den + 52 < 1000 :=
    (zpow_lt_zpow_iff_right₀ one_lt_two).1 (hlow.trans_lt hfinite)
  rw [nearestRatio, if_neg (by omega)]
  refine ⟨_, _, rfl, ?_⟩
  generalize lastBit num den = e at *
  generalize scale num den e = s at *
  have hpos' : (0 : ℚ) < s.2 := by exact_mod_cast hpos
  have hbits : 2 ^ 52 * s.2 ≤ s.1 := by
    rw [zpow_add₀ two_ne_zero, ← le_div_iff₀' (by positivity), ← hratio, le_div_iff₀ hpos'] at hlow
    exact_mod_cast hlow
  obtain ⟨hdown, hup⟩ := roundEven_ratio hpos hbits
  have hkept : kept ^ 4096 ≤ 1 - 1 / 2 ^ (52 + 1) := kept_pow_le
  have hround : Near 4096 (roundEven s.1 s.2) ((s.1 : ℚ) / s.2) := by
    constructor
    · rw [div_mul_eq_mul_div, div_le_iff₀ hpos']
      exact (mul_le_mul_of_nonneg_left hkept (Nat.cast_nonneg' s.1)).trans hdown
    · have hnonneg : (0 : ℚ) ≤ roundEven s.1 s.2 * s.2 :=
        mul_nonneg (Nat.cast_nonneg' _) (Nat.cast_nonneg' _)
      rw [le_div_iff₀ hpos', mul_right_comm]
      exact (mul_le_mul_of_nonneg_left hkept hnonneg).trans hup
  have hscaled := hround.scale (show (0 : ℚ) ≤ 2 ^ e by positivity)
  rwa [hratio, div_mul_cancel₀ _ (by positivity)] at hscaled

end Binary64
end Text
end Fonoteca
