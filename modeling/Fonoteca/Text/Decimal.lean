import Fonoteca.Text.Numeral

/-!
# Decimal literals and their nearest binary numbers

A text that is compared with a number counts as a number itself when it is a decimal literal:
digits with an optional sign, point and exponent, as in `-12`, `.5`, `5.` or `1e3`, and blanks of
ASCII around them.

* `Literal.read?` reads such a text as a sign, a whole number and a power of ten.
* `Binary64` are the binary numbers of 53 bits, `Binary64.nearest` is the one that is nearest to a
  literal, a tie going to the even neighbour.
* `Binary64.compareInt` compares exactly, with no rounding of the whole number.
-/

set_option autoImplicit false

namespace Fonoteca
namespace Text

/-! ## Literals -/

/-- A decimal literal: the number that the digits denote, times a power of ten. -/
structure Literal where
  negative : Bool
  digits : List Char
  exponent : Int
  /-- Whether the literal has neither a point nor an exponent. -/
  whole : Bool
  deriving DecidableEq, Repr

namespace Literal

/-- The number that the digits of a literal denote. -/
def coefficient (l : Literal) : Nat :=
  Numeral.value l.digits

/-- The blanks that may surround a literal: tab, the four line breaks of ASCII, and the space. -/
def isSpace (c : Char) : Bool :=
  c == ' ' || ('\t' ≤ c && c ≤ '\r')

/-- The characters without the spaces at either end. -/
def strip (cs : List Char) : List Char :=
  ((cs.dropWhile isSpace).reverse.dropWhile isSpace).reverse

/-- The sign in front of a number, and what follows it. -/
def sign : List Char → Bool × List Char
  | '-' :: cs => (true, cs)
  | '+' :: cs => (false, cs)
  | cs => (false, cs)

/-- The digits after a point, if there is a point, and what follows them. -/
def fraction : List Char → Option (List Char) × List Char
  | '.' :: cs => (some (cs.takeWhile Char.isDigit), cs.dropWhile Char.isDigit)
  | cs => (none, cs)

/-- The least exponent that is too long, and what it counts as. -/
def exponentLimits : Nat × Nat := (100000, 10000)

/-- The exponent that makes up all of the characters; no character at all is no exponent. -/
def exponent? : List Char → Option (Option Int)
  | [] => some none
  | c :: cs =>
    if c = 'e' ∨ c = 'E' then
      let (negative, ds) := sign cs
      (Numeral.digits? ds).map fun n =>
        let n := if n < exponentLimits.1 then n else exponentLimits.2
        some (if negative then -(n : Int) else n)
    else none

/-- The literal that makes up a whole text. -/
def read? (cs : List Char) : Option Literal :=
  let (negative, cs) := sign (strip cs)
  let whole := cs.takeWhile Char.isDigit
  let (part, rest) := fraction (cs.dropWhile Char.isDigit)
  let ds := whole ++ part.getD []
  if ds = [] then none
  else (exponent? rest).map fun e =>
    ⟨negative, ds, e.getD 0 - ((part.getD []).length : Int), part.isNone && e.isNone⟩

end Literal

/-! ## Binary numbers -/

/-- A number of 53 significant bits, or an infinity. -/
inductive Binary64 where
  /-- `mantissa * 2 ^ exponent`. -/
  | finite (mantissa exponent : Int)
  | infinite (negative : Bool)
  deriving DecidableEq, Repr

namespace Binary64

/-- The quotient rounded to the nearest whole number, a tie going to the even one. -/
def roundEven (num den : Nat) : Nat :=
  let q := num / den
  let r := num % den
  if 2 * r < den then q
  else if den < 2 * r then q + 1
  else if q % 2 = 0 then q else q + 1

/-- The fraction `num / den` divided by `2 ^ e`, as a fraction. -/
def scale (num den : Nat) (e : Int) : Nat × Nat :=
  if 0 ≤ e then (num, den * Nat.pow 2 e.toNat) else (num * Nat.pow 2 (-e).toNat, den)

/-- The exponent of the last bit that the nearest number keeps of a positive fraction: 53 bits,
or fewer where the number is so small that the exponent would fall below -1074. -/
def lastBit (num den : Nat) : Int :=
  let guess : Int := (Nat.log2 num : Int) - (Nat.log2 den : Int) - 53
  let s := scale num den guess
  max (if s.2 * Nat.pow 2 53 ≤ s.1 then guess + 1 else guess) (-1074)

/-- The magnitude nearest to a positive fraction. -/
def nearestRatio (num den : Nat) : Option (Nat × Int) :=
  let e := lastBit num den
  let s := scale num den e
  let m := roundEven s.1 s.2
  if 971 < e ∨ (e = 971 ∧ Nat.pow 2 53 ≤ m) then none else some (m, e)

/-- The binary number nearest to a literal.  Literals far beyond either end of the range are told
by their number of digits alone. -/
def nearest (l : Literal) : Binary64 :=
  let size : Int := (l.digits.dropWhile (· = '0')).length + l.exponent
  if l.coefficient = 0 ∨ size < -330 then .finite 0 0
  else if 310 < size then .infinite l.negative
  else
    let ratio := if 0 ≤ l.exponent then nearestRatio (l.coefficient * Nat.pow 10 l.exponent.toNat) 1
      else nearestRatio l.coefficient (Nat.pow 10 (-l.exponent).toNat)
    match ratio with
    | none => .infinite l.negative
    | some (m, e) => .finite (if l.negative then -(m : Int) else m) e

/-- How a whole number compares with a binary number. -/
def compareInt (n : Int) : Binary64 → Ordering
  | .infinite negative => if negative then .gt else .lt
  | .finite m e =>
    if 0 ≤ e then compare n (m * Nat.pow 2 e.toNat) else compare (n * Nat.pow 2 (-e).toNat) m

end Binary64

end Text
end Fonoteca
