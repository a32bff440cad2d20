import Fonoteca.Disk.Basic
import Fonoteca.Store.Location
import Fonoteca.Tags.Id3v1
import Fonoteca.Tags.Id3v2
import Fonoteca.Tags.Mpeg

/-!
# The tags of a file

A file of sound may have tags at its front and a tag at its end; those at the front win.  If there
are none, a tag may be among the bytes before the sound.  The name of the file has to say that it is
one, and it has to hold sound.

* `AudioFile.tags` are the tags in the contents of a file.
* `Disk.readTags` reads them from a file on a disk.
-/

set_option autoImplicit false

namespace Fonoteca
namespace AudioFile

/-- The endings of the names of files of sound, in small letters. -/
def extensions : List String := ["mp3", "mp2", "mp1"]

/-- Whether a path has an ending of files of sound, in letters of either case. -/
def isNamed (p : Path) : Bool :=
  match p.extension?.bind Text.Utf8.decode? with
  | some s => extensions.contains (Text.asciiLower s)
  | none => false

/-! ## Tags at the front -/

/-- What precedes the sound: the entries of the tags at the front, if there are any, and the bytes
behind them. -/
def front (entries : Option Id3v2.Entries) (bs : Bytes) :
    Except TagFault (Option Id3v2.Entries × Bytes) :=
  if _h : Id3v2.mark <+: bs ∧ Id3v2.headerSize ≤ bs.length then
    let header := Id3v2.Header.read bs
    if !header.isKnown then .error (.version header.version header.revision)
    else match Id3v2.Entries.read bs with
      | .error e => .error e
      | .ok e =>
        front (some ((entries.getD {}).followedBy e)) ((bs.drop Id3v2.headerSize).drop header.size)
  else if Id3v2.mark <+: bs ∧ 4 ≤ bs.length then .error .cutOff
  else .ok (entries, bs)
termination_by bs.length
decreasing_by
  simp only [Id3v2.headerSize, List.length_drop] at *
  omega

/-! ## Tags between other bytes -/

/-- The bytes from the first mark of a tag on that is within the given number of bytes. -/
def fromMark (within : Nat) (bs : Bytes) : Option Bytes :=
  if Id3v2.mark <+: bs ∧ Id3v2.mark.length ≤ within then some bs
  else match bs, within with
    | _ :: rest, within + 1 => fromMark within rest
    | _, _ => none

/-- How many bytes in front of the sound may hold a tag among them. -/
def junkSize : Nat := 1024

/-- The entries of the tag among some bytes in front of the sound, if there is one of a version that
is known. -/
def buried (file : Bytes) (soundStart : Nat) : Except TagFault (Option Id3v2.Entries) :=
  match fromMark (min soundStart junkSize) file with
  | none => .ok none
  | some bs =>
    let header := Id3v2.Header.read bs
    if !header.isKnown then .ok none
    else if bs.length < Id3v2.headerSize + header.size then .error .cutOff
    else (Id3v2.Entries.read bs).map some

/-! ## Sound -/

/-- How many bytes have to be there before the end of the sound. -/
def leastSize : Nat := 32

/-- How many bytes of the sound of a frame have to be there. -/
def leastSound : Nat := 32

/-- The first frame of sound and the bytes from its beginning on, if there is one. -/
def firstFrame? (bs : Bytes) : Except TagFault (Option (Mpeg.Header × Bytes)) :=
  match (if bs.length < 4 then .nothing else Mpeg.firstFrame bs) with
  | .cutOff => .error .cutOff
  | .nothing => .ok none
  | .frame h bytes => .ok (some (h, bytes))

/-- Checks that a file holds sound, whose first frame and whose end are given. -/
def checkSound (frame : Option (Mpeg.Header × Bytes)) (soundEnd : Nat) : Except TagFault Unit :=
  if soundEnd < leastSize then .error (.notRead .beforeStart)
  else match frame with
    | none => .error .noFrame
    | some (h, bytes) => if bytes.length < h.dataStart + leastSound then .error .cutOff else .ok ()

/-! ## All of them -/

/-- The tags in the contents of a file.  A tag among the bytes in front of the sound only counts if
there is none at the front, and one at the end only if there is no other. -/
def tags (file : Bytes) : Except TagFault Tags := do
  let bs := file.dropWhile (· = 0)
  if bs = [] then .error .cutOff
  let (atFront, sound) ← front none bs
  let frame ← firstFrame? sound
  let entries ← match atFront, frame with
    | none, some (_, bytes) => buried file (file.length - bytes.length)
    | _, _ => .ok atFront
  let atEnd := Id3v1.read? file
  checkSound frame (if atEnd.isSome then file.length - Id3v1.size else file.length)
  return match entries with
    | some entries => entries.tags
    | none => atEnd.getD {}

end AudioFile

/-- The tags of a file on a disk. -/
def Disk.readTags (d : Disk Content) (p : Path) : Except TagFault Tags :=
  match d.node true p with
  | .error e => .error (.notOpened e)
  | .ok node =>
    if AudioFile.isNamed p then
      match node with
      | .file (.bytes bs) => AudioFile.tags bs
      | .file (.database _ _) => .error .noFrame
      | .folder _ => .error (.notRead .isFolder)
      | .link _ => .error (.notOpened .tooManyLinks)
    else .error .noFormat

/-- The source of tags that reads the files on a disk. -/
def Disk.tagReader (d : Disk Content) : TagReader := fun p =>
  (d.readTags p).mapError fun e => .metadata p e.message

end Fonoteca
