import Fonoteca.Track

/-!
# Lists of tracks as JSON

Tracks are written as a JSON array with one record for each of them, set out on lines of their own
and indented by two blanks for each level.

* `Json.Scalar` are the values in a record, `Json.Scalar.write` writes one.
* `Json.write` writes a list of records, `Track.record` is the record of a track.
-/

set_option autoImplicit false

namespace Fonoteca
namespace Json

/-! ## Scalars -/

/-- A value in a record. -/
inductive Scalar where
  | text (s : String)
  | number (n : Int)
  deriving DecidableEq, Repr

/-- The last two hexadecimal digits of a code point. -/
def lowDigits (c : Char) : List Char :=
  [Nat.digitChar (c.toNat / 16 % 16), Nat.digitChar (c.toNat % 16)]

/-- A character as it stands in a text: quotes, `\` and controls are spelled out. -/
def writeChar (c : Char) : List Char :=
  if c = '"' ∨ c = '\\' then ['\\', c]
  else if c = '\n' then ['\\', 'n']
  else if c = '\r' then ['\\', 'r']
  else if c = '\t' then ['\\', 't']
  else if c = '\x08' then ['\\', 'b']
  else if c = '\x0c' then ['\\', 'f']
  else if c.toNat < 0x20 then ['\\', 'u', '0', '0'] ++ lowDigits c
  else [c]

/-- A text between quotes. -/
def writeText (s : String) : String :=
  String.ofList ('"' :: (s.toList.flatMap writeChar ++ ['"']))

/-- A value as it is written. -/
def Scalar.write : Scalar → String
  | .text s => writeText s
  | .number n => toString n

/-! ## Records -/

/-- The values of a record with their names, in order. -/
abbrev Record := List (String × Scalar)

/-- One value of a record with its name. -/
def writeField (field : String × Scalar) : String :=
  "    " ++ writeText field.1 ++ ": " ++ field.2.write

/-- A record as an item of a list. -/
def writeRecord (r : Record) : String :=
  "  \x7b\n" ++ ",\n".intercalate (r.map writeField) ++ "\n  \x7d"

/-- A list of records. -/
def write (rs : List Record) : String :=
  if rs = [] then "[]" else "[\n" ++ ",\n".intercalate (rs.map writeRecord) ++ "\n]"

end Json

/-- A track as a record. -/
def Track.record (t : Track) : Json.Record :=
  [("artist", .text t.artist), ("title", .text t.title), ("album", .text t.album),
   ("track", .number t.number.toNat), ("year", .number t.year.toInt), ("genre", .text t.genre),
   ("path", .text t.path), ("id", .number t.id)]

end Fonoteca
