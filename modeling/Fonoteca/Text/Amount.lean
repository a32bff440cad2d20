import Fonoteca.Text.Decimal

/-!
# Amounts

A text that is compared with a number counts as a number itself when it is a decimal literal.  A
literal without point and exponent that fits in 64 bits is that whole number.  Any other is worked
out with 64 significant bits and then rounded to 53: its first digits are multiplied by powers of
ten, and each product is rounded.

* `Extended` are the numbers of 64 significant bits.
* `Literal.binary` is the binary number of 53 bits that comes of a literal.
* `Amount.ofText?` is the amount that a text denotes, `Amount.compareInt` compares with it.
-/

set_option autoImplicit false

namespace Fonoteca
namespace Text

/-! ## Numbers of 64 bits -/

/-- The number `mantissa * 2 ^ exponent`. -/
structure Extended where
  mantissa : Nat
  exponent : Int
  deriving DecidableEq, Repr

namespace Extended

/-- The number of significant bits. -/
def precision : Nat := 64

/-- The nearest number that has no more significant bits than it may have, a tie going to the even
one. -/
def round (mantissa : Nat) (exponent : Int) : Extended :=
  let extra := Nat.log2 mantissa + 1 - precision
  ⟨Binary64.roundEven mantissa (Nat.pow 2 extra), exponent + (extra : Int)⟩

/-- The rounded product of two numbers. -/
def times (x y : Extended) : Extended :=
  round (x.mantissa * y.mantissa) (x.exponent + y.exponent)

/-- The power `10 ^ n`, rounded. -/
def powerOfTen (n : Nat) : Extended :=
  round (Nat.pow 10 n) 0

/-- The fraction `1 / 10 ^ n`, rounded. -/
def fractionOfTen (n : Nat) : Extended :=
  let shift := precision + Nat.log2 (Nat.pow 10 n)
  ⟨Binary64.roundEven (Nat.pow 2 shift) (Nat.pow 10 n), -(shift : Int)⟩

/-- A number multiplied by another so many times. -/
def timesRepeated (x y : Extended) : Nat → Extended
  | 0 => x
  | n + 1 => timesRepeated (x.times y) y n

/-- A number moved by so many decimal places, by hundreds, tens and ones of them. -/
def move (x : Extended) (power : Nat → Extended) (places : Nat) : Extended :=
  let x := x.timesRepeated (power 100) (places / 100)
  let x := x.timesRepeated (power 10) (places % 100 / 10)
  x.timesRepeated (power 1) (places % 10)

/-- The nearest magnitude of 53 bits. -/
def toBinary64? (x : Extended) : Option (Nat × Int) :=
  if 0 ≤ x.exponent then Binary64.nearestRatio (x.mantissa * Nat.pow 2 x.exponent.toNat) 1
  else Binary64.nearestRatio x.mantissa (Nat.pow 2 (-x.exponent).toNat)

end Extended

/-! ## Literals -/

namespace Literal

/-- The least number that cannot take another digit within 64 bits. -/
def fullSize : Nat := 1844674407370955160

/-- The least number that is not multiplied by ten within 64 bits. -/
def scaledSize : Nat := 1844674407370955161

/-- The number that the first digits denote, as many as it can take behind some number, and how many
digits are left over. -/
def significand (n : Nat) : List Char → Nat × Nat
  | [] => (n, 0)
  | d :: ds =>
    if fullSize ≤ n then (n, ds.length + 1)
    else significand (10 * n + Numeral.digitValue d) ds

/-- A number with as many of some decimal places put into it as it can take, and how many are left
over. -/
def scaleUp (n : Nat) : Nat → Nat × Nat
  | 0 => (n, 0)
  | places + 1 => if n < scaledSize then scaleUp (10 * n) places else (n, places + 1)

/-- A number with as many of some decimal places taken from it as it has zeros at its end, and how
many are left over. -/
def scaleDown (n : Nat) : Nat → Nat × Nat
  | 0 => (n, 0)
  | places + 1 => if n % 10 = 0 then scaleDown (n / 10) places else (n, places + 1)

/-- The magnitude of a number moved by some decimal places, unless it is too large. -/
def magnitude (n : Nat) (places : Int) : Option (Nat × Int) :=
  if 0 ≤ places then
    let (n, left) := scaleUp n places.toNat
    ((Extended.mk n 0).move Extended.powerOfTen left).toBinary64?
  else
    let (n, left) := scaleDown n (-places).toNat
    ((Extended.mk n 0).move Extended.fractionOfTen left).toBinary64?

/-- The binary number that comes of a literal. -/
def binary (l : Literal) : Binary64 :=
  let (n, left) := significand 0 l.digits
  if n = 0 then .finite 0 0
  else match magnitude n (l.exponent + (left : Int)) with
    | none => .infinite l.negative
    | some (m, e) => .finite (if l.negative then -(m : Int) else m) e

end Literal

/-! ## Amounts -/

/-- What a text that is a number stands for in a comparison. -/
inductive Amount where
  | whole (n : Int)
  | real (x : Binary64)
  deriving DecidableEq, Repr

namespace Amount

/-- The whole number that a literal without point and exponent denotes. -/
def wholeOf (l : Literal) : Int :=
  if l.negative then -(l.coefficient : Int) else l.coefficient

/-- The amount of a literal. -/
def ofLiteral (l : Literal) : Amount :=
  if l.whole ∧ Numeral.int64Min ≤ wholeOf l ∧ wholeOf l ≤ Numeral.int64Max then .whole (wholeOf l)
  else .real l.binary

/-- The amount that a text denotes, if it is a decimal literal. -/
def ofText? (s : String) : Option Amount :=
  (Literal.read? s.toList).map ofLiteral

/-- How a whole number compares with an amount. -/
def compareInt (n : Int) : Amount → Ordering
  | .whole m => compare n m
  | .real x => x.compareInt n

end Amount
end Text
end Fonoteca
