import Fonoteca.Error
import Fonoteca.Genre
import Fonoteca.Track

/-!
# Tags

The tags of an audio file are the few things that the library asks a file about, each of which may
be absent.

* `Tags` are the tags, `TagReader` is a source of them.
* `Track.ofTags` is the track that a file with some tags becomes: blank texts count as absent, texts
  are trimmed, genres given by number are named, and what is absent has a default.
-/

set_option autoImplicit false

namespace Fonoteca

/-- What the tags of a file say. -/
structure Tags where
  artist : Option String := none
  title : Option String := none
  album : Option String := none
  number : Option UInt32 := none
  year : Option Int32 := none
  genre : Option String := none
  deriving DecidableEq, Repr, Inhabited

/-- A source of tags: what a file says, or why it cannot be read. -/
abbrev TagReader := Path → Except LibraryError Tags

namespace Track

/-- The track with a text put into one of its fields, if the text is there and not blank. -/
def withPresent (t : Track) (put : Track → String → Track) (s : Option String) : Track :=
  match s.bind Text.present? with
  | some s => put t s
  | none => t

/-- The track that a file with the given tags becomes. -/
def ofTags (path : Path) (tags : Tags) : Track :=
  let t : Track := {}
  let t := t.withPresent withArtist tags.artist
  let t := t.withPresent withTitle tags.title
  let t := t.withPresent withAlbum tags.album
  let t := t.withPresent (fun t s => t.withGenre (Genre.expand s)) tags.genre
  let t := { t with number := tags.number.getD t.number, year := tags.year.getD t.year }
  t.withPath path.display

end Track
end Fonoteca
