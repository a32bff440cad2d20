import Fonoteca.Proofs.Text.Spelling

/-!
# Numerals and the first number in a text

The library works numbers out digit by digit.  Here the result is compared with how numbers are
written.

* `Numeral.Denotes` says which digits denote a number: its numeral, behind any number of zeros.
  `Numeral.denotes_iff` : all digits denote the number that is worked out, and no other.
* `Numeral.IsCanonical` digits have no zero in front; `Numeral.isCanonical_iff` : they are the
  numeral of their number.
* `Numeral.IsFirst` is the number that the first digits in a text denote, all of those that stand in
  a row there.
* **`Numeral.leadingNumber_is_first`** : this number is read, or none if it is too large, and what
  is read comes into a machine word as it is.
-/

set_option autoImplicit false

namespace Fonoteca
namespace Text
namespace Numeral

variable {ds : List Char} {n : ℕ}

/-! ## Digits and their number -/

theorem value_eq_ofDigitChars (ds : List Char) : value ds = Nat.ofDigitChars 10 ds 0 :=
  Nat.ofDigitChars_eq_foldl.symm

/-- The digits denote the number: they are its numeral, perhaps behind zeros. -/
def Denotes (ds : List Char) (n : ℕ) : Prop :=
  ∃ zeros, ds = List.replicate zeros '0' ++ Nat.toDigits 10 n

theorem digitValue_lt {d : Char} (h : d.isDigit = true) : digitValue d < 10 := by
  simp only [Char.isDigit, Bool.and_eq_true, decide_eq_true_eq] at h
  have h9 : d.toNat ≤ 57 := UInt32.le_iff_toNat_le.1 h.2
  have h0 : '0'.toNat = 48 := rfl
  rw [digitValue, h0]
  omega

theorem toDigits_digitValue {d : Char} (h : d.isDigit = true) :
    Nat.toDigits 10 (digitValue d) = [d] := by
  have hlt := digitValue_lt h
  rw [Nat.toDigits_of_lt_base hlt]
  refine congrArg (fun c => [c]) (Char.toNat_inj.1 ?_)
  simp only [Char.isDigit, Bool.and_eq_true, decide_eq_true_eq] at h
  have h0 : 48 ≤ d.toNat := UInt32.le_iff_toNat_le.1 h.1
  have hzero : '0'.toNat = 48 := rfl
  rw [Nat.toNat_digitChar_of_lt_ten hlt, digitValue, hzero]
  omega

namespace Denotes

theorem value_eq (h : Denotes ds n) : value ds = n := by
  obtain ⟨zeros, rfl⟩ := h
  rw [value_eq_ofDigitChars, Nat.ofDigitChars_append, Nat.ofDigitChars_replicate_zero, Nat.mul_zero,
    Nat.ofDigitChars_ten_toDigits]

theorem areDigits (h : Denotes ds n) : AreDigits ds := by
  obtain ⟨zeros, rfl⟩ := h
  intro c hc
  rcases List.mem_append.1 hc with hc | hc
  · rw [List.eq_of_mem_replicate hc]
    rfl
  · exact Nat.isDigit_of_mem_toDigits (by decide) (by decide) hc

theorem ne_nil (h : Denotes ds n) : ds ≠ [] := by
  obtain ⟨zeros, rfl⟩ := h
  simp [Nat.toDigits_ne_nil]

/-- One more digit behind some digits. -/
theorem concat (h : Denotes ds n) {d : Char} (hd : d.isDigit = true) :
    Denotes (ds ++ [d]) (10 * n + digitValue d) := by
  obtain ⟨zeros, rfl⟩ := h
  rcases Nat.eq_zero_or_pos n with rfl | hn
  · -- the numeral of zero is one of the zeros in front now
    refine ⟨zeros + 1, ?_⟩
    rw [Nat.mul_zero, Nat.zero_add, toDigits_digitValue hd, Nat.toDigits_zero,
      List.replicate_succ']
  · refine ⟨zeros, ?_⟩
    rw [List.append_assoc, ← toDigits_digitValue hd,
      Nat.toDigits_append_toDigits (by decide) hn (digitValue_lt hd)]

end Denotes

/-- All digits denote the number that is worked out. -/
theorem denotes_value (h : AreDigits ds) (hne : ds ≠ []) : Denotes ds (value ds) := by
  induction ds using List.reverseRecOn with
  | nil => exact absurd rfl hne
  | append_singleton ds d ih =>
    have hd : d.isDigit = true := h d (by simp)
    have hvalue : value (ds ++ [d]) = 10 * value ds + digitValue d := by
      simp [value]
    rw [hvalue]
    by_cases hds : ds = []
    · subst hds
      exact ⟨0, (toDigits_digitValue hd).symm.trans (by simp [value])⟩
    · exact (ih (fun c hc => h c (List.mem_append_left _ hc)) hds).concat hd

/-- **Digits denote the number that is worked out from them**, and no other. -/
theorem denotes_iff : Denotes ds n ↔ AreDigits ds ∧ ds ≠ [] ∧ value ds = n := by
  constructor
  · intro h
    exact ⟨h.areDigits, h.ne_nil, h.value_eq⟩
  · rintro ⟨hdigits, hne, rfl⟩
    exact denotes_value hdigits hne

/-! ## Canonical numerals -/

/-- Digits without a zero in front, unless it is the only digit. -/
structure IsCanonical (ds : List Char) (n : ℕ) : Prop where
  digits : AreDigits ds
  ne_nil : ds ≠ []
  head : ds.head? = some '0' → ds = ['0']
  value : value ds = n

/-- **Canonical digits** are the numeral of their number. -/
theorem isCanonical_iff : IsCanonical ds n ↔ Nat.toDigits 10 n = ds := by
  constructor
  · intro h
    obtain ⟨zeros, hds⟩ := denotes_iff.2 ⟨h.digits, h.ne_nil, h.value⟩
    cases zeros with
    | zero => exact hds.symm
    | succ zeros =>
      -- a zero in front would be all there is, and leave no digit for the numeral
      have hlength := congrArg List.length (h.head (by rw [hds]; rfl))
      rw [hds, List.length_append, List.length_replicate, List.length_singleton] at hlength
      have hpos := @Nat.length_toDigits_pos 10 n
      omega
  · rintro rfl
    have hdenotes : Denotes (Nat.toDigits 10 n) n := ⟨0, rfl⟩
    refine ⟨hdenotes.areDigits, hdenotes.ne_nil, fun hhead => ?_, hdenotes.value_eq⟩
    obtain ⟨rest, hrest⟩ : ∃ rest, Nat.toDigits 10 n = '0' :: rest := by
      simpa [List.head?_eq_some_iff] using hhead
    by_contra hne
    have hnil : rest ≠ [] := by
      rintro rfl
      exact hne hrest
    -- the digits behind the zero denote the same number, so its numeral is among them
    have hdigits : AreDigits rest := fun c hc => hdenotes.areDigits c (hrest ▸ .tail _ hc)
    have hvalue : Numeral.value rest = n := by
      rw [← hdenotes.value_eq, hrest]
      rfl
    obtain ⟨zeros, heq⟩ := denotes_iff.2 ⟨hdigits, hnil, hvalue⟩
    have hlength := congrArg List.length hrest
    rw [heq, List.length_cons, List.length_append] at hlength
    omega

/-! ## The first number in a text -/

/-- The first number in a text: the digits that stand in a row there denote it, and in front of them
is no digit. -/
def IsFirst (s : String) (n : ℕ) : Prop :=
  ∃ before digits after, s.toList = before ++ digits ++ after ∧
    (∀ c ∈ before, c.isDigit = false) ∧ (∀ c ∈ after.head?, c.isDigit = false) ∧
    AreDigits digits ∧ digits ≠ [] ∧ Denotes digits n

theorem firstRun_append {before digits after : List Char}
    (hbefore : ∀ c ∈ before, c.isDigit = false) (hafter : ∀ c ∈ after.head?, c.isDigit = false)
    (hdigits : AreDigits digits) (hne : digits ≠ []) :
    firstRun (before ++ digits ++ after) = digits := by
  have hstop : ∀ c ∈ (digits ++ after).head?, (!c.isDigit) = false := by
    obtain ⟨d, ds, rfl⟩ := List.exists_cons_of_ne_nil hne
    rintro c ⟨⟩
    rw [hdigits d (.head _), Bool.not_true]
  have hfront : ∀ c ∈ before, (!c.isDigit) = true := fun c hc => by rw [hbefore c hc, Bool.not_false]
  rw [firstRun, List.append_assoc, dropWhile_append_of_stop hfront hstop,
    takeWhile_append_of_stop hdigits hafter]

/-- A text is cut into what is in front of the first run of digits, the run, and what follows. -/
theorem exists_firstRun (cs : List Char) :
    ∃ before after, cs = before ++ firstRun cs ++ after ∧ (∀ c ∈ before, c.isDigit = false) ∧
      (∀ c ∈ after.head?, c.isDigit = false) ∧ AreDigits (firstRun cs) := by
  refine ⟨cs.takeWhile (!·.isDigit), (cs.dropWhile (!·.isDigit)).dropWhile Char.isDigit, ?_, ?_, ?_,
    fun c hc => List.mem_takeWhile_imp hc⟩
  · rw [firstRun, List.append_assoc, List.takeWhile_append_dropWhile,
      List.takeWhile_append_dropWhile]
  · intro c hc
    simpa using List.mem_takeWhile_imp hc
  · intro c hc
    have hstop := List.head?_dropWhile_not Char.isDigit (cs.dropWhile (!·.isDigit))
    rw [Option.mem_def.1 hc] at hstop
    simpa using hstop

/-- The first number in a text is worked out from the first run of digits. -/
theorem isFirst_iff {s : String} :
    IsFirst s n ↔ digits? (firstRun s.toList) = some n := by
  rw [Literal.digits?_eq_some_iff]
  constructor
  · rintro ⟨before, digits, after, heq, hbefore, hafter, hdigits, hne, hdenotes⟩
    rw [heq, firstRun_append hbefore hafter hdigits hne]
    exact ⟨hdigits, hne, hdenotes.value_eq.symm⟩
  · rintro ⟨hdigits, hne, rfl⟩
    obtain ⟨before, after, heq, hbefore, hafter, -⟩ := exists_firstRun s.toList
    exact ⟨before, _, after, heq, hbefore, hafter, hdigits, hne, denotes_value hdigits hne⟩

theorem IsFirst.unique {s : String} {m : ℕ} (hm : IsFirst s m) (hn : IsFirst s n) : m = n :=
  Option.some.inj ((isFirst_iff.1 hm).symm.trans (isFirst_iff.1 hn))

theorem leadingNumber_eq_some_iff {s : String} {hi : ℕ} :
    leadingNumber hi s = some n ↔ IsFirst s n ∧ n ≤ hi := by
  rw [leadingNumber, Option.filter_eq_some_iff, isFirst_iff, decide_eq_true_eq]

/-! ### Machine words -/

/-- A kind of machine word, with the integers that its words stand for. -/
structure Word (α : Type) where
  greatest : ℕ
  ofNat : ℕ → α
  toInt : α → ℤ
  /-- Up to the greatest number no number is changed. -/
  toInt_ofNat : ∀ n ≤ greatest, toInt (ofNat n) = n
  toInt_le : ∀ x, toInt x ≤ greatest
  toInt_injective : Function.Injective toInt

namespace Word

def uint8 : Word UInt8 where
  greatest := 255
  ofNat := UInt8.ofNat
  toInt x := x.toNat
  toInt_ofNat _ hn := congrArg Nat.cast (UInt8.toNat_ofNat_of_lt' (Nat.lt_succ_of_le hn))
  toInt_le x := Int.ofNat_le.2 (Nat.le_of_lt_succ x.toNat_lt)
  toInt_injective _ _ h := UInt8.toNat_inj.1 (Int.ofNat_inj.1 h)

def uint32 : Word UInt32 where
  greatest := uint32Max
  ofNat := UInt32.ofNat
  toInt x := x.toNat
  toInt_ofNat _ hn := congrArg Nat.cast (UInt32.toNat_ofNat_of_lt' (Nat.lt_succ_of_le hn))
  toInt_le x := Int.ofNat_le.2 (Nat.le_of_lt_succ x.toNat_lt)
  toInt_injective _ _ h := UInt32.toNat_inj.1 (Int.ofNat_inj.1 h)

def int32 : Word Int32 where
  greatest := int32Max.toNat
  ofNat := Int32.ofNat
  toInt := Int32.toInt
  toInt_ofNat _ hn := Int32.toInt_ofNat_of_lt (Nat.lt_succ_of_le hn)
  toInt_le := Int32.toInt_le
  toInt_injective _ _ := Int32.toInt_inj.1

def int64 : Word Int64 where
  greatest := int64Max.toNat
  ofNat := Int64.ofNat
  toInt := Int64.toInt
  toInt_ofNat _ hn := Int64.toInt_ofNat_of_lt (Nat.lt_succ_of_le hn)
  toInt_le := Int64.toInt_le
  toInt_injective _ _ := Int64.toInt_inj.1

/-- A word that is read stands for the first number. -/
theorem map_leadingNumber_eq_some_iff {α : Type} (w : Word α) {s : String} {x : α} :
    (leadingNumber w.greatest s).map w.ofNat = some x ↔
      0 ≤ w.toInt x ∧ IsFirst s (w.toInt x).toNat := by
  rw [Option.map_eq_some_iff]
  constructor
  · rintro ⟨n, hn, rfl⟩
    obtain ⟨hfirst, hle⟩ := leadingNumber_eq_some_iff.1 hn
    rw [w.toInt_ofNat n hle]
    exact ⟨Int.natCast_nonneg n, hfirst⟩
  · rintro ⟨hpos, hfirst⟩
    have hx : ((w.toInt x).toNat : ℤ) = w.toInt x := Int.toNat_of_nonneg hpos
    have hle : (w.toInt x).toNat ≤ w.greatest := Int.toNat_le.2 (w.toInt_le x)
    exact ⟨_, leadingNumber_eq_some_iff.2 ⟨hfirst, hle⟩,
      w.toInt_injective ((w.toInt_ofNat _ hle).trans hx)⟩

end Word

/-- **The number that is read off a text is the first one in it**, however many zeros are in front
of it and whatever stands around it, as long as it is not too large; a number that is too large is
not cut down, and no later number takes its place.  Words of 8 and 32 bits without a sign, and of 32
and 64 bits with one, hold this number. -/
theorem leadingNumber_is_first (s : String) :
    (∀ hi n, leadingNumber hi s = some n ↔ IsFirst s n ∧ n ≤ hi) ∧
    (∀ hi, leadingNumber hi s = none ↔ ∀ n, IsFirst s n → hi < n) ∧
    (∀ m n, IsFirst s m → IsFirst s n → m = n) ∧
    (∀ x : UInt8, (leadingNumber 255 s).map UInt8.ofNat = some x ↔ IsFirst s x.toNat) ∧
    (∀ x : UInt32, (leadingNumber uint32Max s).map UInt32.ofNat = some x ↔ IsFirst s x.toNat) ∧
    (∀ x : Int32, (leadingNumber int32Max.toNat s).map Int32.ofNat = some x ↔
      0 ≤ x.toInt ∧ IsFirst s x.toInt.toNat) ∧
    ∀ x : Int64, (leadingNumber int64Max.toNat s).map Int64.ofNat = some x ↔
      0 ≤ x.toInt ∧ IsFirst s x.toInt.toNat := by
  refine ⟨fun hi n => leadingNumber_eq_some_iff, fun hi => ?_, fun m n => IsFirst.unique,
    fun x => ?_, fun x => ?_, fun x => Word.int32.map_leadingNumber_eq_some_iff,
    fun x => Word.int64.map_leadingNumber_eq_some_iff⟩
  · simp only [Option.eq_none_iff_forall_ne_some, ne_eq, leadingNumber_eq_some_iff, not_and,
      not_le]
  · simpa [Word.uint8] using Word.uint8.map_leadingNumber_eq_some_iff (s := s) (x := x)
  · simpa [Word.uint32] using Word.uint32.map_leadingNumber_eq_some_iff (s := s) (x := x)

/-- Digits of other scripts are no digits, and the number behind the slash is not looked at. -/
theorem leadingNumber_is_first_numero :
    IsFirst "№ ٣: 007/12" 7 ∧ leadingNumber 255 "№ ٣: 007/12" = some 7 ∧
      leadingNumber 6 "№ ٣: 007/12" = none := by
  have hnone : "№ ٣: ".toList.all (!·.isDigit) = true := by decide +kernel
  have hbefore : ∀ c ∈ "№ ٣: ".toList, c.isDigit = false := fun c hc => by
    simpa using List.all_eq_true.1 hnone c hc
  have hafter : ∀ c ∈ ['/', '1', '2'].head?, c.isDigit = false := by
    rintro c ⟨⟩
    rfl
  have hfirst : IsFirst "№ ٣: 007/12" 7 :=
    ⟨_, "007".toList, _, by decide +kernel, hbefore, hafter, List.all_eq_true.1 (by decide +kernel),
      by decide +kernel, 2, by decide +kernel⟩
  obtain ⟨hsome, hnothing, hunique, -⟩ := leadingNumber_is_first "№ ٣: 007/12"
  refine ⟨hfirst, (hsome 255 7).2 ⟨hfirst, by decide⟩, (hnothing 6).2 fun n hn => ?_⟩
  rw [hunique n 7 hn hfirst]
  decide

end Numeral
end Text
end Fonoteca
