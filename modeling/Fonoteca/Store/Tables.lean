import Fonoteca.Performer
import Fonoteca.Store.Error
import Fonoteca.Text.Numeral
import Fonoteca.Track

/-!
# The tables of the library

The library is kept in six tables.  Rows are added at the end and never taken away, and each new row
of a table gets the least number above all the numbers in it.

* `Tables` are the tables, `nextId` is the number of the next row.
* `Tables.addPerformer`, `Tables.addAlbum` and `Tables.addTrack` add a row that may be incomplete or
  wrong, and are refused as the constraints of the table demand: no column may be empty, names and
  paths are unique, and a row that is referred to has to be there.
* `Tables.joined` lists the tracks with the names of their performers and albums.
* `JoinedRow.toTrack` reads such a row as a track, if its numbers fit.
-/

set_option autoImplicit false

namespace Fonoteca

/-! ## Rows -/

/-- An album as a row.  Its year may be any number of 64 bits. -/
structure AlbumRow where
  id : Int
  directory : String
  name : String
  year : Int
  deriving DecidableEq, Repr, Inhabited

/-- A track as a row.  Its numbers may be any numbers of 64 bits. -/
structure TrackRow where
  id : Int := 0
  performer : Int
  album : Int
  path : String
  title : String
  number : Int
  year : Int
  genre : String
  deriving DecidableEq, Repr, Inhabited

/-- A person's membership in a group. -/
structure Membership where
  person : Int
  group : Int
  deriving DecidableEq, Repr, Inhabited

/-- The tables of the library. -/
structure Tables where
  performers : List Performer := []
  albums : List AlbumRow := []
  tracks : List TrackRow := []
  persons : List Person := []
  groups : List Group := []
  memberships : List Membership := []
  deriving DecidableEq, Repr, Inhabited

/-- The number of the next row of a table whose rows have the given numbers. -/
def nextId (ids : List Int) : Int :=
  ids.foldl max 0 + 1

theorem le_foldl_max (ids : List Int) (start : Int) : start ≤ ids.foldl max start := by
  induction ids generalizing start with
  | nil => exact Int.le_refl start
  | cons i ids ih => exact Int.le_trans (Int.le_max_left start i) (ih (max start i))

theorem nextId_pos (ids : List Int) : 0 < nextId ids :=
  Int.lt_add_one_of_le (le_foldl_max ids 0)

/-- The number of the next row is above all others, so no row has it yet. -/
theorem lt_nextId {ids : List Int} {i : Int} (h : i ∈ ids) : i < nextId ids := by
  suffices ∀ start, i ≤ ids.foldl max start from Int.lt_add_one_of_le (this 0)
  induction ids with
  | nil => simp at h
  | cons j ids ih =>
    intro start
    rcases List.mem_cons.1 h with rfl | h
    · exact Int.le_trans (Int.le_max_right start i) (le_foldl_max ids _)
    · exact ih h _

namespace Tables

/-- The number of the next performer. -/
def nextPerformer (t : Tables) : Int :=
  nextId (t.performers.map (·.id))

/-- The number of the next album. -/
def nextAlbum (t : Tables) : Int :=
  nextId (t.albums.map (·.id))

/-- The number of the next track. -/
def nextTrack (t : Tables) : Int :=
  nextId (t.tracks.map (·.id))

/-- The number of the next person. -/
def nextPerson (t : Tables) : Int :=
  nextId (t.persons.map (·.id))

/-- The number of the next group. -/
def nextGroup (t : Tables) : Int :=
  nextId (t.groups.map (·.id))

/-! ## Looking up -/

/-- The performer with a number. -/
def performer? (t : Tables) (id : Int) : Option Performer :=
  t.performers.find? (·.id = id)

/-- The album with a number. -/
def album? (t : Tables) (id : Int) : Option AlbumRow :=
  t.albums.find? (·.id = id)

/-- The track with a number. -/
def track? (t : Tables) (id : Int) : Option TrackRow :=
  t.tracks.find? (·.id = id)

/-- The person with a number. -/
def person? (t : Tables) (id : Int) : Option Person :=
  t.persons.find? (·.id = id)

/-- The group with a number. -/
def group? (t : Tables) (id : Int) : Option Group :=
  t.groups.find? (·.id = id)

/-- The number of the performer of a name. -/
def performerNamed? (t : Tables) (name : String) : Option Int :=
  (t.performers.find? (·.name = name)).map (·.id)

/-- The number of the album of a name in a folder. -/
def albumNamed? (t : Tables) (directory name : String) : Option Int :=
  (t.albums.find? fun a => a.directory = directory ∧ a.name = name).map (·.id)

/-- The number of the first person of a stage name. -/
def personNamed? (t : Tables) (stageName : String) : Option Int :=
  (t.persons.find? (·.stageName = stageName)).map (·.id)

/-- The number of the first group of a name. -/
def groupNamed? (t : Tables) (name : String) : Option Int :=
  (t.groups.find? (·.name = name)).map (·.id)

/-! ## Adding rows -/

/-- Adds a performer, and gives the number of the row. -/
def pushPerformer (t : Tables) (kind : PerformerKind) (name : String) : Int × Tables :=
  (t.nextPerformer, { t with performers := t.performers ++ [⟨t.nextPerformer, kind, name⟩] })

/-- Adds an album, and gives the number of the row. -/
def pushAlbum (t : Tables) (directory name : String) (year : Int) : Int × Tables :=
  (t.nextAlbum, { t with albums := t.albums ++ [⟨t.nextAlbum, directory, name, year⟩] })

/-- Adds a track with the next number in place of its own, and gives that number. -/
def pushTrack (t : Tables) (r : TrackRow) : Int × Tables :=
  (t.nextTrack, { t with tracks := t.tracks ++ [{ r with id := t.nextTrack }] })

/-! ## Adding rows under the constraints -/

/-- The value of a column that may not be empty. -/
def required {α : Type} (column : String) : Option α → Except Fault α
  | some a => .ok a
  | none => .error (.missingValue column)

/-- Refuses with a fault unless a condition holds. -/
def demand (condition : Prop) [Decidable condition] (fault : Fault) : Except Fault Unit :=
  if condition then .ok () else .error fault

/-- Adds a performer, given the number of its kind. -/
def addPerformer (t : Tables) (kind : Option Int) (name : Option String) :
    Except Fault (Int × Tables) := do
  let kind ← required "performers.id_type" kind
  let name ← required "performers.name" name
  demand (t.performerNamed? name = none) (.notUnique "performers.name")
  demand (kind ∈ PerformerKind.codes) .danglingReference
  return t.pushPerformer (.ofCode kind) name

/-- Adds an album. -/
def addAlbum (t : Tables) (directory name : Option String) (year : Option Int) :
    Except Fault (Int × Tables) := do
  let directory ← required "albums.path" directory
  let name ← required "albums.name" name
  let year ← required "albums.year" year
  demand (t.albumNamed? directory name = none) (.notUnique "albums.path, albums.name")
  return t.pushAlbum directory name year

/-- Adds a track. -/
def addTrack (t : Tables) (performer album : Option Int) (path title : Option String)
    (number year : Option Int) (genre : Option String) : Except Fault (Int × Tables) := do
  let performer ← required "rolas.id_performer" performer
  let album ← required "rolas.id_album" album
  let path ← required "rolas.path" path
  let title ← required "rolas.title" title
  let number ← required "rolas.track" number
  let year ← required "rolas.year" year
  let genre ← required "rolas.genre" genre
  demand (∀ r ∈ t.tracks, r.path ≠ path) (.notUnique "rolas.path")
  demand ((t.performer? performer).isSome ∧ (t.album? album).isSome) .danglingReference
  return t.pushTrack { performer, album, path, title, number, year, genre }

/-- Adds a membership, unless it is there already. -/
def addMembership (t : Tables) (person group : Int) : Except Fault Tables := do
  if ⟨person, group⟩ ∈ t.memberships then return t
  demand ((t.person? person).isSome ∧ (t.group? group).isSome) .danglingReference
  return { t with memberships := t.memberships ++ [⟨person, group⟩] }

end Tables

/-! ## Tracks with the names they refer to -/

/-- A row of tracks together with the names of its performer and its album. -/
structure JoinedRow where
  id : Int
  artist : String
  title : String
  album : String
  number : Int
  year : Int
  genre : String
  path : String
  deriving DecidableEq, Repr, Inhabited

namespace JoinedRow

/-- The track number of a row, if it is one of 32 bits. -/
def decodeNumber (n : Int) : Except Fault UInt32 :=
  if n < 0 then .error (.doesNotFit "track" false)
  else if Text.Numeral.uint32Max < n then .error (.doesNotFit "track" true)
  else .ok (UInt32.ofNat n.toNat)

/-- The year of a row, if it is one of 32 bits. -/
def decodeYear (n : Int) : Except Fault Int32 :=
  if n < Text.Numeral.int32Min then .error (.doesNotFit "year" false)
  else if Text.Numeral.int32Max < n then .error (.doesNotFit "year" true)
  else .ok (Int32.ofInt n)

/-- A row as a track, if its numbers fit. -/
def toTrack (r : JoinedRow) : Except Fault Track := do
  let number ← decodeNumber r.number
  let year ← decodeYear r.year
  return { artist := r.artist, title := r.title, album := r.album, number, year,
           genre := r.genre, path := r.path, id := r.id }

end JoinedRow

/-- An album's row as an album, if its year fits. -/
def AlbumRow.toAlbum (r : AlbumRow) : Except Fault Album := do
  let year ← JoinedRow.decodeYear r.year
  return ⟨r.id, r.directory, r.name, year⟩

namespace Tables

/-- A row of tracks with the names it refers to, if both are there. -/
def join? (t : Tables) (r : TrackRow) : Option JoinedRow :=
  match t.performer? r.performer, t.album? r.album with
  | some p, some a => some ⟨r.id, p.name, r.title, a.name, r.number, r.year, r.genre, r.path⟩
  | _, _ => none

/-- The tracks with the names they refer to, in the order of their numbers. -/
def joined (t : Tables) : List JoinedRow :=
  (t.tracks.filterMap t.join?).mergeSort fun a b => a.id ≤ b.id

end Tables
end Fonoteca
