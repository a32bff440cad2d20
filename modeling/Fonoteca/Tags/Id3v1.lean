import Fonoteca.Tags.Fields
import Fonoteca.Text.Utf8

/-!
# The tag at the end of a file

The last 128 bytes of a file may be a tag of fixed layout that begins with `TAG`: title, artist and
album of thirty bytes each, a year of four, a comment of thirty, and the number of the genre.  A
zero before the last byte of the comment makes that byte the number of the track.
-/

set_option autoImplicit false

namespace Fonoteca
namespace Id3v1

/-- The length of the tag. -/
def size : Nat := 128

/-- The bytes as text, each byte being one character; zeros are left out. -/
def latin (bs : Bytes) : String :=
  String.ofList ((bs.filter (· ≠ 0)).map fun b => Char.ofNat b.toNat)

/-- The text of a field of the tag. -/
def field (tag : Bytes) (start length : Nat) : Option String :=
  Tags.presentText (latin ((tag.drop start).take length))

/-- The byte at a place of the tag. -/
def byteAt (tag : Bytes) (i : Nat) : UInt8 :=
  tag[i]?.getD 0

/-- What a tag says. -/
def tags (tag : Bytes) : Tags where
  title := field tag 3 30
  artist := field tag 33 30
  album := field tag 63 30
  year := (field tag 93 4).bind Tags.year?
  number :=
    if byteAt tag 125 = 0 ∧ byteAt tag 126 ≠ 0 then some (byteAt tag 126).toUInt32 else none
  genre := Tags.genreNamed? (byteAt tag 127).toNat

/-- What the tag at the end of a file says, if there is one. -/
def read? (file : Bytes) : Option Tags :=
  let tag := file.drop (file.length - size)
  if tag.length = size ∧ Text.Utf8.encode "TAG" <+: tag then some (tags tag) else none

end Id3v1
end Fonoteca
