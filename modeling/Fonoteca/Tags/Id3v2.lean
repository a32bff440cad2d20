import Fonoteca.Tags.Fields
import Fonoteca.Tags.Timestamp
import Fonoteca.Text.Utf16

/-!
# The tag at the front of a file

A file may begin with a tag made of frames.  The tag has a header of ten bytes that begins with
`ID3` and gives the version and the size; each frame has a header of ten bytes with its name and its
size.  A frame of text begins with a byte that gives the encoding.

* `Header.read` reads the header of a tag, `frames` cuts its body into frames.
* `decodeText` reads the text of a frame.
* `Entries` are the texts that the library asks about, `collect` finds them in the frames of a tag.
* `Entries.tags` is what they say.
-/

set_option autoImplicit false

namespace Fonoteca
namespace Id3v2

/-! ## Headers -/

/-- What a tag begins with. -/
def mark : Bytes := Text.Utf8.encode "ID3"

/-- The length of the header of a tag, and of that of a frame. -/
def headerSize : Nat := 10

/-- The number that some bytes spell, each with as many bits as given. -/
def bigEndian (bits : Nat) (bs : Bytes) : Nat :=
  bs.foldl (fun n b => n * Nat.pow 2 bits + b.toNat % Nat.pow 2 bits) 0

/-- What the header of a tag says. -/
structure Header where
  version : UInt8
  revision : UInt8
  /-- How many bytes the tag has behind its header. -/
  size : Nat
  deriving DecidableEq, Repr

/-- The header at the front of some bytes. -/
def Header.read (bs : Bytes) : Header :=
  ⟨bs[3]?.getD 0, bs[4]?.getD 0, bigEndian 7 ((bs.drop 6).take 4)⟩

/-- Whether the version of a tag is known. -/
def Header.isKnown (h : Header) : Bool :=
  decide (2 ≤ h.version) && decide (h.version ≤ 4)

/-! ## Frames -/

/-- A frame. -/
structure Frame where
  name : Bytes
  body : Bytes
  deriving DecidableEq, Repr

/-- Whether a frame has a name. -/
def Frame.isNamed (f : Frame) (name : String) : Bool :=
  f.name = Text.Utf8.encode name

/-- The size of a frame.  From the fourth version on, a byte of a size has seven bits. -/
def frameSize (version : UInt8) (bs : Bytes) : Nat :=
  if version < 4 then bigEndian 8 bs else bigEndian 7 bs

/-- The frames in the body of a tag, up to the first byte that begins none. -/
def frames (version : UInt8) (bs : Bytes) : List Frame :=
  if _h : bs.length < headerSize ∨ bs.head? = some 0 then []
  else
    let size := frameSize version ((bs.drop 4).take 4)
    let rest := bs.drop headerSize
    ⟨bs.take 4, rest.take size⟩ :: frames version (rest.drop size)
termination_by bs.length
decreasing_by
  simp only [headerSize, List.length_drop] at *
  omega

/-! ## Text -/

/-- The characters of a text in UTF-16, in one of the byte orders. -/
def decodeUnits (order : Text.Utf16.ByteOrder) (bs : Bytes) : Except TextFault (List Char) :=
  match Text.Utf16.decode? (Text.Utf16.units order bs) with
  | some cs => .ok cs
  | none => .error .notUtf16

/-- The characters of a text in UTF-16 that begins with the mark of its byte order. -/
def decodeMarked (bs : Bytes) : Except TextFault (List Char) :=
  if bs.length < 2 then .error .tooShort
  else if bs.length % 2 = 1 then .error .oddLength
  else match bs with
    | 0xFE :: 0xFF :: bs => decodeUnits .bigEndian bs
    | 0xFF :: 0xFE :: bs => decodeUnits .littleEndian bs
    | _ => .error .noByteOrder

/-- The characters of a text in one of the encodings.  No bytes are no characters in all of them. -/
def decodeChars (encoding : UInt8) (bs : Bytes) : Except TextFault (List Char) :=
  if 3 < encoding then .error .noEncoding
  else if bs = [] then .ok []
  else if encoding = 0 then .ok (bs.map fun b => Char.ofNat b.toNat)
  else if encoding = 1 then decodeMarked bs
  else if encoding = 2 then decodeUnits .bigEndian bs
  else match Text.Utf8.decode? bs with
    | some s => .ok s.toList
    | none => .error .notUtf8

/-- The character that separates several values in one frame. -/
def separator : Char := '\x00'

/-- The text of a frame, which may hold several values; separators at its end say nothing. -/
def decodeText (body : Bytes) : Except TextFault (List Char) :=
  match body with
  | [] => .ok []
  | encoding :: bs =>
    (decodeChars encoding bs).map fun cs => (cs.reverse.dropWhile (· = separator)).reverse

/-! ## Values -/

/-- The first value of a text. -/
def firstValue (cs : List Char) : String :=
  String.ofList (cs.takeWhile (· ≠ separator))

/-- The number of a track, which may be followed by the number of all tracks. -/
def trackNumber? (cs : List Char) : Option UInt32 :=
  let number := cs.takeWhile fun c => c ≠ separator ∧ c ≠ '/'
  let total := (cs.drop number.length).drop 1
  if number.length < cs.length ∧ (Tags.number? (String.ofList total)).isNone then none
  else Tags.number? (String.ofList number)

/-- The first genre of a text, which may stand in parentheses.  Two parentheses in front are for a
name that has parentheses itself. -/
def genreEntry (cs : List Char) : List Char :=
  if separator ∈ cs then cs.takeWhile (· ≠ separator)
  else
    match cs with
    | '(' :: rest =>
      if ')' ∈ rest then
        rest.takeWhile (· ≠ ')') ++ (if rest.head? = some '(' then [')'] else [])
      else cs
    | cs => cs

/-! ## Entries -/

/-- The texts of the frames that the library asks about, and the dates. -/
structure Entries where
  title : Option (List Char) := none
  artist : Option (List Char) := none
  album : Option (List Char) := none
  genre : Option (List Char) := none
  number : Option (List Char) := none
  dates : List Timestamp := []
  deriving DecidableEq, Repr

namespace Entries

/-- A text that replaces an earlier one, unless only the earlier one says something. -/
def replaceText (old : Option (List Char)) (new : List Char) : Option (List Char) :=
  if new = [] then old.or (some new) else some new

/-- The dates with one more at the end, where it stands only once. -/
def addDate (dates : List Timestamp) (date : Timestamp) : List Timestamp :=
  dates.erase date ++ [date]

/-- The entries with what one more frame says.  Up to the third version, a frame of its own gives
the year. -/
def addFrame (version : UInt8) (e : Entries) (f : Frame) : Except TagFault Entries := do
  let text := (decodeText f.body).mapError TagFault.text
  if f.body.isEmpty then return e
  else if f.isNamed "TIT2" then return { e with title := replaceText e.title (← text) }
  else if f.isNamed "TPE1" then return { e with artist := replaceText e.artist (← text) }
  else if f.isNamed "TALB" then return { e with album := replaceText e.album (← text) }
  else if f.isNamed "TCON" then return { e with genre := replaceText e.genre (← text) }
  else if f.isNamed "TRCK" then return { e with number := replaceText e.number (← text) }
  else if f.isNamed "TDRC" || (f.isNamed "TYER" && version < 4) then
    match ← (Timestamp.parse? (← text)).mapError TagFault.timestamp with
    | some date => return { e with dates := addDate e.dates date }
    | none => return e
  else if f.isNamed "TYER" then
    let _ ← text
    return e
  else return e

/-- The entries of a tag.  Up to the third version, only the first date counts, and only if it is a
year and nothing more. -/
def collect (version : UInt8) (fs : List Frame) : Except TagFault Entries := do
  let e ← fs.foldlM (addFrame version) {}
  if version < 4 then return { e with dates := (e.dates.take 1).filter (·.parts = []) }
  else return e

/-- The entries of the tag whose header is at the front of some bytes, as far as they reach. -/
def read (bs : Bytes) : Except TagFault Entries :=
  let header := Header.read bs
  collect header.version (frames header.version ((bs.drop headerSize).take header.size))

/-- The entries of two tags, of which the second wins. -/
def followedBy (e later : Entries) : Entries where
  title := later.title.or e.title
  artist := later.artist.or e.artist
  album := later.album.or e.album
  genre := later.genre.or e.genre
  number := later.number.or e.number
  dates := later.dates.foldl addDate e.dates

/-- What the entries say: the first value of each text unless it is blank, and the year of the first
valid date. -/
def tags (e : Entries) : Tags where
  title := (e.title.map firstValue).bind Tags.presentText
  artist := (e.artist.map firstValue).bind Tags.presentText
  album := (e.album.map firstValue).bind Tags.presentText
  genre := (e.genre.map fun cs => Tags.genreOf (String.ofList (genreEntry cs))).bind
    Tags.presentText
  number := e.number.bind trackNumber?
  year := (e.dates.find? fun d => d.IsValid).map fun d => Int32.ofInt d.year

end Entries
end Id3v2
end Fonoteca
