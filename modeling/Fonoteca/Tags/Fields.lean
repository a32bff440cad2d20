import Fonoteca.Tags.Basic
import Fonoteca.Tags.Genres
import Fonoteca.Text.Numeral

/-!
# Reading the values of tags

The rules for the values that both kinds of tag share: blank texts are absent, the year is the first
number of four digits, and the number of a track may have blanks around it.
-/

set_option autoImplicit false

namespace Fonoteca
namespace Tags

/-- A text, unless it is blank. -/
def presentText (s : String) : Option String :=
  if (Text.trim s).isEmpty then none else some s

/-- The first four digits of a text, if it begins with as many. -/
def firstYear? (s : String) : Option Nat :=
  let ds := ((Text.trimFront s.toList).takeWhile Char.isDigit).take 4
  if ds.length = 4 then some (Text.Numeral.value ds) else none

/-- The year that a text gives: its first four digits, or else the first number in it. -/
def year? (s : String) : Option Int32 :=
  let found := match firstYear? s with
    | some n => some n
    | none => Text.Numeral.leadingNumber Text.Numeral.int32Max.toNat s
  found.map fun n => Int32.ofInt n

/-- The number of a track that a text gives, with blanks around it. -/
def number? (s : String) : Option UInt32 :=
  (Text.Numeral.natural? Text.Numeral.uint32Max (Text.trim s)).map UInt32.ofNat

end Tags
end Fonoteca
