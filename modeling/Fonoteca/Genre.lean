import Fonoteca.Text.Blank

/-!
# Genres

Tags may name a genre by a number of a fixed list, bare or in parentheses.

* `Genre.names` are the eighty genres of the list.
* `Genre.expand` turns a number of the list into its name and keeps any other text.
-/

set_option autoImplicit false

namespace Fonoteca
namespace Genre

/-- The genres with the numbers 0 to 79, in order. -/
def names : List String :=
  ["Blues", "Classic Rock", "Country", "Dance", "Disco", "Funk", "Grunge", "Hip-Hop", "Jazz",
   "Metal", "New Age", "Oldies", "Other", "Pop", "R&B", "Rap", "Reggae", "Rock", "Techno",
   "Industrial", "Alternative", "Ska", "Death Metal", "Pranks", "Soundtrack", "Euro-Techno",
   "Ambient", "Trip-Hop", "Vocal", "Jazz+Funk", "Fusion", "Trance", "Classical", "Instrumental",
   "Acid", "House", "Game", "Sound Clip", "Gospel", "Noise", "AlternRock", "Bass", "Soul",
   "Punk", "Space", "Meditative", "Instrumental Pop", "Instrumental Rock", "Ethnic", "Gothic",
   "Darkwave", "Techno-Industrial", "Electronic", "Pop-Folk", "Eurodance", "Dream",
   "Southern Rock", "Comedy", "Cult", "Gangsta", "Top 40", "Christian Rap", "Pop/Funk", "Jungle",
   "Native American", "Cabaret", "New Wave", "Psychedelic", "Rave", "Showtunes", "Trailer",
   "Lo-Fi", "Tribal", "Acid Punk", "Acid Jazz", "Polka", "Retro", "Musical", "Rock & Roll",
   "Hard Rock"]

/-- The text inside parentheses that enclose all of a text, or the text itself. -/
def unwrap : List Char → List Char
  | '(' :: cs => if cs.getLast? = some ')' then cs.dropLast else '(' :: cs
  | cs => cs

/-- The name whose number, written without sign and leading zeros, is the given text. -/
def named? (key : List Char) : Option String :=
  (names.zipIdx.find? fun e => Nat.toDigits 10 e.2 = key).map (·.1)

/-- The name of the genre that a text gives by number, with blanks and parentheses around it or
not; any other text stays as it is. -/
def expand (s : String) : String :=
  (named? (unwrap (Text.trimChars s.toList))).getD s

end Genre
end Fonoteca
