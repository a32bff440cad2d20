import Fonoteca.Text.Utf8

/-!
# UTF-16

A text in UTF-16 is a row of units of 16 bits.  A character is one unit, or two halves.

* `units` are the units that some bytes spell in one of the two byte orders.
* `decode?` reads units in which each first half is followed by a second one, and no other second
  half stands anywhere.
-/

set_option autoImplicit false

namespace Fonoteca
namespace Text
namespace Utf16

/-- The order of the two bytes of a unit. -/
inductive ByteOrder where
  | bigEndian
  | littleEndian
  deriving DecidableEq, Repr

/-- The unit of two bytes. -/
def ByteOrder.unit (order : ByteOrder) (a b : UInt8) : Nat :=
  match order with
  | .bigEndian => a.toNat * 256 + b.toNat
  | .littleEndian => b.toNat * 256 + a.toNat

/-- The unit that marks the byte order, and what it is in the other order. -/
def marks : List Nat := [0xFEFF, 0xFFFE]

/-- The units of some bytes.  Marks of the byte order are left out, wherever they stand, and so is
a last byte that is only half a unit. -/
def units (order : ByteOrder) : Bytes → List Nat
  | a :: b :: bs =>
    let u := order.unit a b
    if u ∈ marks then units order bs else u :: units order bs
  | _ => []

/-- Whether a unit is the first half of a character that takes two. -/
def isFirstHalf (u : Nat) : Bool :=
  0xD800 ≤ u && u < 0xDC00

/-- Whether a unit is the second half of a character that takes two. -/
def isSecondHalf (u : Nat) : Bool :=
  0xDC00 ≤ u && u < 0xE000

/-- The character of two halves. -/
def ofHalves (u v : Nat) : Char :=
  Char.ofNat (0x10000 + (u - 0xD800) * 0x400 + (v - 0xDC00))

/-- The characters that some units spell, if they are well formed. -/
def decode? : List Nat → Option (List Char)
  | [] => some []
  | [u] => if isFirstHalf u || isSecondHalf u then none else some [Char.ofNat u]
  | u :: v :: us =>
    if isFirstHalf u then
      if isSecondHalf v then (decode? us).map (ofHalves u v :: ·) else none
    else if isSecondHalf u then none
    else (decode? (v :: us)).map (Char.ofNat u :: ·)

end Utf16
end Text
end Fonoteca
