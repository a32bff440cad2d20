import Fonoteca.Path
import Fonoteca.Text.Blank

/-!
# Tracks and albums

A track is what the library knows about one audio file.  A track that is not in the library yet has
an identity that is not positive; the library assigns it one, once.

* `Track.withArtist`, `Track.withTitle`, `Track.withAlbum`, `Track.withGenre` and `Track.withPath`
  replace one text by a trimmed one.
* `Track.assignId` gives a track its identity, unless it has one.
* `Track.albumDir` is the folder of the file.  Together with the album's name it identifies the
  album, so that two albums of one name in different folders stay apart.
-/

set_option autoImplicit false

namespace Fonoteca

/-- The text of a tag that a file does not have. -/
def unknown : String := "Unknown"

/-- The year of a file that names none. -/
def defaultYear : Int32 := 2018

/-- What the library knows about one audio file. -/
structure Track where
  artist : String := unknown
  title : String := unknown
  album : String := unknown
  number : UInt32 := 0
  year : Int32 := defaultYear
  genre : String := unknown
  /-- Where the file is; no two tracks in the library have the same path. -/
  path : String := unknown
  id : Int := 0
  deriving DecidableEq, Repr, Inhabited

namespace Track

/-- Whether the library has given the track an identity. -/
def isPersisted (t : Track) : Bool :=
  0 < t.id

/-- The track with an identity, and whether it was given: a track that has one keeps it. -/
def assignId (t : Track) (id : Int) : Bool × Track :=
  if t.isPersisted then (false, t) else (true, { t with id })

/-- The track with another artist. -/
def withArtist (t : Track) (s : String) : Track :=
  { t with artist := Text.trim s }

/-- The track with another title. -/
def withTitle (t : Track) (s : String) : Track :=
  { t with title := Text.trim s }

/-- The track with another album. -/
def withAlbum (t : Track) (s : String) : Track :=
  { t with album := Text.trim s }

/-- The track with another genre. -/
def withGenre (t : Track) (s : String) : Track :=
  { t with genre := Text.trim s }

/-- The track with another path. -/
def withPath (t : Track) (s : String) : Track :=
  { t with path := Text.trim s }

/-- The folder of the file, or the empty text if its path has none. -/
def albumDir (t : Track) : String :=
  match (Path.ofString t.path).parent? with
  | some p => p.display
  | none => ""

end Track

/-- An album, as the library keeps it. -/
structure Album where
  id : Int
  directory : String
  name : String
  year : Int32
  deriving DecidableEq, Repr, Inhabited

end Fonoteca
