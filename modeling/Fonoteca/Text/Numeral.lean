/-!
# Decimal numerals

The three ways in which the library reads a whole number from text.

* `integer? lo hi` reads a text that is a numeral from end to end, with an optional sign.
* `natural? hi` does so for numbers that have no minus sign.
* `leadingNumber hi` reads the first run of digits anywhere in a text.

Digits are the ASCII digits.  None of the three wraps or truncates: a number outside the bounds is
no number.
-/

set_option autoImplicit false

namespace Fonoteca
namespace Text
namespace Numeral

/-- The value of one decimal digit. -/
def digitValue (c : Char) : Nat :=
  c.toNat - '0'.toNat

/-- The value of a hexadecimal digit. -/
def hexValue? (c : Char) : Option Nat :=
  if c.isDigit then some (c.toNat - '0'.toNat)
  else if 'a' ≤ c ∧ c ≤ 'f' then some (c.toNat - 'a'.toNat + 10)
  else if 'A' ≤ c ∧ c ≤ 'F' then some (c.toNat - 'A'.toNat + 10)
  else none

/-- The number that a list of digits denotes; leading zeros do not count. -/
def value (ds : List Char) : Nat :=
  ds.foldl (fun n d => 10 * n + digitValue d) 0

/-- The number that a list of characters denotes, if they are digits and there is at least one. -/
def digits? (cs : List Char) : Option Nat :=
  if cs ≠ [] ∧ cs.all Char.isDigit then some (value cs) else none

/-- The whole number that the characters denote, with an optional sign in front. -/
def signed? : List Char → Option Int
  | '-' :: ds => (digits? ds).map fun n => -(n : Int)
  | '+' :: ds => (digits? ds).map fun n => (n : Int)
  | ds => (digits? ds).map fun n => (n : Int)

/-- The number that a text denotes, if it lies between `lo` and `hi`. -/
def integer? (lo hi : Int) (s : String) : Option Int :=
  (signed? s.toList).filter fun n => lo ≤ n ∧ n ≤ hi

/-- The number up to `hi` that a text without a minus sign denotes. -/
def natural? (hi : Nat) (s : String) : Option Nat :=
  let ds := match s.toList with
    | '+' :: ds => ds
    | ds => ds
  (digits? ds).filter (· ≤ hi)

/-- The greatest number of 32 bits without a sign. -/
def uint32Max : Nat := 4294967295

/-- The least number of 32 bits. -/
def int32Min : Int := -2147483648

/-- The greatest number of 32 bits. -/
def int32Max : Int := 2147483647

/-- The least number of 64 bits. -/
def int64Min : Int := -9223372036854775808

/-- The greatest number of 64 bits. -/
def int64Max : Int := 9223372036854775807

/-- The number of 64 bits that a text denotes. -/
def int64? (s : String) : Option Int :=
  integer? int64Min int64Max s

/-- The first run of digits of a list of characters. -/
def firstRun (cs : List Char) : List Char :=
  (cs.dropWhile (!·.isDigit)).takeWhile Char.isDigit

/-- The number that the first run of digits denotes, if there is one and it is at most `hi`. -/
def leadingNumber (hi : Nat) (s : String) : Option Nat :=
  (digits? (firstRun s.toList)).filter (· ≤ hi)

end Numeral
end Text
end Fonoteca
