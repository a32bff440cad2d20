import Fonoteca.Tags.Fault
import Fonoteca.Text.Numeral

/-!
# Timestamps

The date in a tag is a timestamp: a year of four characters, and as much of `-MM-DDTHH:MM:SS` behind
it as is known.  It may be written without `-` and `:`, but then without all of them.  Spaces may
stand for zeros, and in a timestamp with separators a number behind the year may lack its leading
zero.

* `Timestamp.parse?` reads a timestamp.
* `Timestamp.IsValid` says that no number of a timestamp is out of range.
-/

set_option autoImplicit false

namespace Fonoteca

/-- A date, as far as it is known. -/
structure Timestamp where
  year : Nat
  /-- The month, the day, the hour, the minute and the second, as many of them as are known. -/
  parts : List Nat := []
  deriving DecidableEq, Repr

namespace Timestamp

/-! ## Numbers -/

/-- Whether a character may stand in front of a number behind the year. -/
def isSeparator (c : Char) : Bool :=
  c == '-' || c == 'T' || c == ':'

/-- The digits of a number among some characters, with how many characters it takes.  Some
characters end the number. -/
def digits (ends : Char → Bool) : List Char → Except TimestampFault (List Char × Nat)
  | [] => .ok ([], 0)
  | c :: cs =>
    if c = ' ' then (digits ends cs).map fun r => (r.1, r.2 + 1)
    else if c.isDigit then (digits ends cs).map fun r => (c :: r.1, r.2 + 1)
    else if ends c then .ok ([], 0)
    else .error .notDigits

/-- The number of at most `size` characters in front, with how many it takes: none if there are
fewer characters, or no digit among them. -/
def number (ends : Char → Bool) (size : Nat) (cs : List Char) :
    Except TimestampFault (Option (Nat × Nat)) :=
  if cs.length < size then .ok none
  else (digits ends (cs.take size)).map fun r =>
    if r.1 = [] then none else some (Text.Numeral.value r.1, r.2)

/-- What is behind the separator that has to be in front, if one has to be. -/
def behind? : Option Char → List Char → Option (List Char)
  | none, cs => some cs
  | some separator, cs => if cs.head? = some separator then some (cs.drop 1) else none

/-- The numbers behind the year, up to the first that is not there, each with the separator that has
to be in front of it.  Only a number that has one may be cut short by the separator of the next. -/
def partsOf : List (Option Char) → List Char → Except TimestampFault (List Nat)
  | [], _ => .ok []
  | separator :: separators, cs =>
    match behind? separator cs with
    | none => .ok []
    | some cs =>
      match number (fun c => separator.isSome && isSeparator c) 2 cs with
      | .error e => .error e
      | .ok none => .ok []
      | .ok (some (n, taken)) => (partsOf separators (cs.drop taken)).map (n :: ·)

/-! ## Dates -/

/-- How many characters of a timestamp are looked at. -/
def maxLength : Nat := 19

/-- How many of them the year takes. -/
def yearLength : Nat := 4

/-- Whether a timestamp has separators inside of its date or inside of its time. -/
def isSeparated (cs : List Char) : Bool :=
  cs.any fun c => c == '-' || c == ':'

/-- The separators in front of the month, the day, the hour, the minute and the second.  The time
always has one in front of it. -/
def separators (separated : Bool) : List (Option Char) :=
  let only := fun c => if separated then some c else none
  [only '-', only '-', some 'T', only ':', only ':']

/-- The timestamp that a text spells.  An empty text spells none, and neither does one with
characters beyond ASCII. -/
def parse? (cs : List Char) : Except TimestampFault (Option Timestamp) :=
  if cs = [] || cs.any (127 < ·.toNat) then .ok none
  else
    let cs := cs.take maxLength
    match number (fun _ => false) yearLength cs with
    | .error e => .error e
    | .ok none => .error .yearLength
    | .ok (some (year, _)) =>
      (partsOf (separators (isSeparated cs)) (cs.drop yearLength)).map fun parts =>
        some ⟨year, parts⟩

/-- The largest month, day, hour, minute and second. -/
def limits : List Nat := [12, 31, 23, 59, 59]

/-- No number of a timestamp is larger than its kind allows. -/
def IsValid (t : Timestamp) : Prop :=
  ∀ p ∈ t.parts.zip limits, p.1 ≤ p.2

instance (t : Timestamp) : Decidable t.IsValid :=
  inferInstanceAs (Decidable (∀ p ∈ t.parts.zip limits, p.1 ≤ p.2))

end Timestamp
end Fonoteca
