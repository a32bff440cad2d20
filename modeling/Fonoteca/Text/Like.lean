/-!
# Wildcard patterns

A pattern is matched against a whole text: `%` stands for any run of characters, `_` for any single
one, and `\` makes the character after it stand for itself.  Letters of ASCII match in either case,
all other characters only themselves, but U+FFFE and U+FFFF are no characters and both count as
U+FFFD.  Both sides end at the first U+0000.

* `wildcard` writes the pattern that finds a value anywhere in a text; `isOverlong` says which
  patterns the database does not take.
* `Piece.ofPattern` reads a pattern, `Piece.matchAll` matches it, and `like` does both.
-/

set_option autoImplicit false

namespace Fonoteca
namespace Text

/-! ## Letters -/

/-- A character with capital letters of ASCII made small. -/
def foldCase (c : Char) : Char :=
  if 'A' ≤ c ∧ c ≤ 'Z' then Char.ofNat (c.toNat + 32) else c

/-- What a character counts as: U+FFFE and U+FFFF as the character for what cannot be read. -/
def readable (c : Char) : Char :=
  if c = '\uFFFE' ∨ c = '\uFFFF' then '\uFFFD' else c

/-- Whether two characters count as the same, up to the case of ASCII letters. -/
def sameLetter (c d : Char) : Bool :=
  foldCase (readable c) == foldCase (readable d)

/-- A string with the capital letters of ASCII made small. -/
def asciiLower (s : String) : String :=
  String.ofList (s.toList.map foldCase)

/-! ## Writing patterns -/

/-- The characters that mean something in a pattern. -/
def isSpecial (c : Char) : Bool :=
  c == '%' || c == '_' || c == '\\'

/-- The characters of a value with `\` before each one that means something in a pattern. -/
def escapeSpecial : List Char → List Char
  | [] => []
  | c :: cs => if isSpecial c then '\\' :: c :: escapeSpecial cs else c :: escapeSpecial cs

/-- The pattern that finds a value anywhere in a text. -/
def wildcard (value : String) : String :=
  String.ofList ('%' :: (escapeSpecial value.toList ++ ['%']))

/-- How many bytes a pattern may have. -/
def maxPattern : Nat := 50000

/-- Whether a pattern has too many bytes. -/
def isOverlong (pattern : String) : Bool :=
  decide (maxPattern < pattern.utf8ByteSize)

/-! ## Matching -/

/-- One piece of a pattern. -/
inductive Piece where
  /-- Any run of characters. -/
  | run
  /-- Any single character. -/
  | any
  /-- This character, up to case. -/
  | exactly (c : Char)
  deriving DecidableEq, Repr

namespace Piece

/-- The pieces of a pattern; a pattern that ends in a lone `\` has none and matches nothing. -/
def ofPattern : List Char → Option (List Piece)
  | [] => some []
  | '\\' :: c :: cs => (ofPattern cs).map (.exactly c :: ·)
  | '\\' :: [] => none
  | '%' :: cs => (ofPattern cs).map (.run :: ·)
  | '_' :: cs => (ofPattern cs).map (.any :: ·)
  | c :: cs => (ofPattern cs).map (.exactly c :: ·)

/-- The lists that are left when characters are dropped from the front, the longest first. -/
def suffixes : List Char → List (List Char)
  | [] => [[]]
  | c :: cs => (c :: cs) :: suffixes cs

/-- Whether the pieces match all of the characters. -/
def matchAll : List Piece → List Char → Bool
  | [], cs => cs.isEmpty
  | .run :: ps, cs => (suffixes cs).any (matchAll ps)
  | .any :: ps, cs => match cs with
    | [] => false
    | _ :: cs => matchAll ps cs
  | .exactly c :: ps, cs => match cs with
    | [] => false
    | d :: cs => sameLetter c d && matchAll ps cs

end Piece

/-- The characters before the first U+0000. -/
def upToNul (cs : List Char) : List Char :=
  cs.takeWhile (· != '\x00')

/-- Whether a text matches a pattern. -/
def like (text pattern : String) : Bool :=
  match Piece.ofPattern (upToNul pattern.toList) with
  | none => false
  | some ps => Piece.matchAll ps (upToNul text.toList)

end Text
end Fonoteca
