import Fonoteca.Text.Numeral
import Fonoteca.Text.Utf8

/-!
# Percent encoding

In an address a byte may be written as `%` and two hexadecimal digits.  A `%` that no two digits
follow stands for itself.

* `Percent.decode` gives the bytes of a text written so.
* `Percent.pairs` reads the options of an address, `key=value` with `&` between them, in which a `+`
  stands for a space.
-/

set_option autoImplicit false

namespace Fonoteca
namespace Text

namespace Percent

/-- The byte that two hexadecimal digits spell. -/
def byte? (c d : Char) : Option UInt8 :=
  match Numeral.hexValue? c, Numeral.hexValue? d with
  | some m, some n => some (UInt8.ofNat (16 * m + n))
  | _, _ => none

/-- The bytes of a text in which bytes may be percent encoded. -/
def decode : List Char → Bytes
  | '%' :: c :: d :: cs =>
    match byte? c d with
    | some b => b :: decode cs
    | none => Utf8.encodeChars ['%'] ++ decode (c :: d :: cs)
  | c :: cs => Utf8.encodeChars [c] ++ decode cs
  | [] => []
termination_by cs => cs.length

/-- The characters cut at every occurrence of one. -/
def split (sep : Char) : List Char → List (List Char)
  | [] => [[]]
  | c :: cs =>
    if c = sep then [] :: split sep cs
    else match split sep cs with
      | [] => [[c]]
      | piece :: pieces => (c :: piece) :: pieces

/-- A part of an option as text. -/
def part (cs : List Char) : String :=
  Utf8.decodeLossy (decode (cs.map fun c => if c = '+' then ' ' else c))

/-- The options that a text spells, in order. -/
def pairs (cs : List Char) : List (String × String) :=
  ((split '&' cs).filter (· ≠ [])).map fun piece =>
    (part (piece.takeWhile (· ≠ '=')), part ((piece.dropWhile (· ≠ '=')).drop 1))

end Percent
end Text
end Fonoteca
