import Fonoteca.Text.Decimal
import Fonoteca.Toml.Basic

/-!
# Numbers and dates in TOML

Numbers are decimal, with an optional sign, or whole and without a sign in base 16, 8 or 2.  Between
two digits there may be a `_`.  Whole numbers have 64 bits.  Dates and times follow the calendar.

* `whole`, `real` and `date` read what their names say from the front of some characters.
-/

set_option autoImplicit false

namespace Fonoteca
namespace Toml

/-! ## Digits -/

/-- The digits that follow a digit, with `_` allowed between two of them, and the characters behind
them; `none` if a `_` is not followed by a digit. -/
def moreDigits (isDigit : Char → Bool) : List Char → Option (List Char × List Char)
  | '_' :: c :: cs =>
    if isDigit c then (moreDigits isDigit cs).map fun r => (c :: r.1, r.2) else none
  | '_' :: [] => none
  | c :: cs =>
    if isDigit c then (moreDigits isDigit cs).map fun r => (c :: r.1, r.2) else some ([], c :: cs)
  | [] => some ([], [])

/-- One or more digits, and the characters behind them. -/
def digits (isDigit : Char → Bool) : List Char → Option (List Char × List Char)
  | c :: cs =>
    if isDigit c then (moreDigits isDigit cs).map fun r => (c :: r.1, r.2) else none
  | [] => none

/-- The digits of a decimal number, which has no leading zero unless it is zero. -/
def decimalDigits : List Char → Option (List Char × List Char)
  | '0' :: cs => some (['0'], cs)
  | cs => digits Char.isDigit cs

/-! ## Whole numbers -/

/-- The number that digits denote in a base. -/
def valueIn (base : Nat) (ds : List Char) : Nat :=
  ds.foldl (fun n d => base * n + (Text.Numeral.hexValue? d).getD 0) 0

/-- A number, if it has 64 bits. -/
def int64? (n : Int) : Option Int :=
  if Text.Numeral.int64Min ≤ n ∧ n ≤ Text.Numeral.int64Max then some n else none

/-- Whether a character is a digit in a base. -/
def isDigitIn (base : Nat) (c : Char) : Bool :=
  match Text.Numeral.hexValue? c with
  | some d => d < base
  | none => false

/-- The whole number in a base, from its digits on. -/
def wholeIn (base : Nat) (cs : List Char) : Option (Value × List Char) := do
  let (ds, rest) ← digits (isDigitIn base) cs
  let n ← int64? (valueIn base ds)
  return (.whole n, rest)

/-- A whole number. -/
def whole : List Char → Option (Value × List Char)
  | '0' :: 'x' :: cs => wholeIn 16 cs
  | '0' :: 'o' :: cs => wholeIn 8 cs
  | '0' :: 'b' :: cs => wholeIn 2 cs
  | cs => do
    let (negative, cs) := Text.Literal.sign cs
    let (ds, rest) ← decimalDigits cs
    let n : Int := valueIn 10 ds
    let n ← int64? (if negative then -n else n)
    return (.whole n, rest)

/-! ## Other numbers -/

/-- The part of a number behind its point. -/
def fraction : List Char → Option (Option (List Char) × List Char)
  | '.' :: cs => (digits Char.isDigit cs).map fun r => (some r.1, r.2)
  | cs => some (none, cs)

/-- The exponent of a number. -/
def exponent : List Char → Option (Option Int × List Char)
  | c :: cs =>
    if c = 'e' ∨ c = 'E' then do
      let (negative, cs) := Text.Literal.sign cs
      let (ds, rest) ← digits Char.isDigit cs
      let n : Int := valueIn 10 ds
      return (some (if negative then -n else n), rest)
    else some (none, c :: cs)
  | [] => some (none, [])

/-- A number with a point or an exponent.  It may not be too large, but it may be too small. -/
def decimal (cs : List Char) : Option (Value × List Char) := do
  let (negative, cs) := Text.Literal.sign cs
  let (ds, cs) ← decimalDigits cs
  let (part, cs) ← fraction cs
  let (e, cs) ← exponent cs
  let part' := part.getD []
  let literal : Text.Literal :=
    ⟨negative, ds ++ part', e.getD 0 - (part'.length : Int), false⟩
  if part.isNone ∧ e.isNone then none
  else if Text.Binary64.nearest literal = .infinite false then none
  else some (.real, cs)

/-- An infinity, or what is no number. -/
def special (cs : List Char) : Option (Value × List Char) :=
  match (Text.Literal.sign cs).2 with
  | 'i' :: 'n' :: 'f' :: rest => some (.real, rest)
  | 'n' :: 'a' :: 'n' :: rest => some (.real, rest)
  | _ => none

/-- A number that is not whole. -/
def real (cs : List Char) : Option (Value × List Char) :=
  (decimal cs).orElse fun _ => special cs

/-! ## Dates -/

/-- A number of exactly so many digits, which lies between two bounds. -/
def field (size lo hi : Nat) (cs : List Char) : Option (Nat × List Char) :=
  let ds := cs.take size
  let n := valueIn 10 ds
  if ds.length = size ∧ ds.all Char.isDigit ∧ lo ≤ n ∧ n ≤ hi then some (n, cs.drop size) else none

/-- The characters behind one that has to be there. -/
def after (c : Char) : List Char → Option (List Char)
  | d :: cs => if d = c then some cs else none
  | [] => none

/-- The number of days in a month. -/
def daysIn (year month : Nat) : Nat :=
  if month = 2 then
    (if year % 4 = 0 ∧ (year % 100 ≠ 0 ∨ year % 400 = 0) then 29 else 28)
  else if month ∈ [4, 6, 9, 11] then 30
  else 31

/-- The characters behind a day. -/
def day (cs : List Char) : Option (List Char) := do
  let (year, cs) ← field 4 0 9999 cs
  let (month, cs) ← field 2 1 12 (← after '-' cs)
  let (_, cs) ← field 2 1 (daysIn year month) (← after '-' cs)
  return cs

/-- The characters behind the part of a second, which may be missing. -/
def secondPart : List Char → List Char
  | '.' :: c :: cs => if c.isDigit then cs.dropWhile Char.isDigit else '.' :: c :: cs
  | cs => cs

/-- The characters behind a time of the day. -/
def time (cs : List Char) : Option (List Char) := do
  let (_, cs) ← field 2 0 23 cs
  let (_, cs) ← field 2 0 59 (← after ':' cs)
  let (_, cs) ← field 2 0 60 (← after ':' cs)
  return secondPart cs

/-- The characters behind the distance from universal time. -/
def offset : List Char → Option (List Char)
  | c :: cs =>
    if c = 'Z' ∨ c = 'z' then some cs
    else if c = '+' ∨ c = '-' then do
      let (_, cs) ← field 2 0 23 cs
      let (_, cs) ← field 2 0 59 (← after ':' cs)
      return cs
    else none
  | [] => none

/-- The characters behind the time that may follow a day. -/
def timeOfDay : List Char → Option (List Char)
  | c :: cs =>
    if c = 'T' ∨ c = 't' ∨ c = ' ' then (time cs).map fun rest => (offset rest).getD rest else none
  | [] => none

/-- A date, a time, or both. -/
def date (cs : List Char) : Option (Value × List Char) :=
  match day cs with
  | some rest => some (.date, (timeOfDay rest).getD rest)
  | none => (time cs).map fun rest => (.date, rest)

end Toml
end Fonoteca
