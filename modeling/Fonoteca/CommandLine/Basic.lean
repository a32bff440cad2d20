import Fonoteca.Performer
import Fonoteca.Track

/-!
# Commands

What the program can be told to do.

* `LibraryCommand` are the commands that work on the library.
* `TrackChanges`, `PersonChanges` and `GroupChanges` say what a command changes in a record; what
  they do not mention stays.
* `Command` adds the command about the settings, and `Invocation` the file of the library.
-/

set_option autoImplicit false

namespace Fonoteca

/-! ## Changes of records -/

/-- What to change in a track. -/
structure TrackChanges where
  title : Option String := none
  artist : Option String := none
  album : Option String := none
  genre : Option String := none
  number : Option UInt32 := none
  year : Option Int32 := none
  deriving DecidableEq, Repr, Inhabited

namespace TrackChanges

/-- Whether there is nothing to change. -/
def isEmpty (c : TrackChanges) : Bool :=
  c = {}

/-- The track with the changes made; texts are trimmed. -/
def apply (c : TrackChanges) (t : Track) : Track :=
  let t := c.title.elim t t.withTitle
  let t := c.artist.elim t t.withArtist
  let t := c.album.elim t t.withAlbum
  let t := c.genre.elim t t.withGenre
  { t with number := c.number.getD t.number, year := c.year.getD t.year }

theorem isEmpty_iff (c : TrackChanges) : c.isEmpty = true ↔ c = {} := by
  simp [isEmpty]

@[simp] theorem apply_empty (t : Track) : apply {} t = t := rfl

end TrackChanges

/-- A text in place of another, trimmed, if there is one. -/
def replaced (new : Option String) (old : String) : String :=
  (new.map Text.trim).getD old

namespace TrackChanges

theorem elim_withTitle (new : Option String) (t : Track) :
    new.elim t t.withTitle = { t with title := replaced new t.title } := by
  cases new <;> rfl

theorem elim_withArtist (new : Option String) (t : Track) :
    new.elim t t.withArtist = { t with artist := replaced new t.artist } := by
  cases new <;> rfl

theorem elim_withAlbum (new : Option String) (t : Track) :
    new.elim t t.withAlbum = { t with album := replaced new t.album } := by
  cases new <;> rfl

theorem elim_withGenre (new : Option String) (t : Track) :
    new.elim t t.withGenre = { t with genre := replaced new t.genre } := by
  cases new <;> rfl

/-- The track with the changes made, field by field. -/
theorem apply_eq (c : TrackChanges) (t : Track) :
    c.apply t = { t with
      title := replaced c.title t.title
      artist := replaced c.artist t.artist
      album := replaced c.album t.album
      genre := replaced c.genre t.genre
      number := c.number.getD t.number
      year := c.year.getD t.year } := by
  simp only [apply, elim_withTitle, elim_withArtist, elim_withAlbum, elim_withGenre]

/-- No change concerns the file of a track. -/
@[simp] theorem path_apply (c : TrackChanges) (t : Track) : (c.apply t).path = t.path := by
  rw [apply_eq]

/-- No change concerns the identity of a track. -/
@[simp] theorem id_apply (c : TrackChanges) (t : Track) : (c.apply t).id = t.id := by
  rw [apply_eq]

end TrackChanges

/-- What to change in what is known about a person. -/
structure PersonChanges where
  stageName : Option String := none
  realName : Option String := none
  birthDate : Option String := none
  deathDate : Option String := none
  deriving DecidableEq, Repr, Inhabited

/-- The person with the changes made; texts are trimmed. -/
def PersonChanges.apply (c : PersonChanges) (p : Person) : Person :=
  { p with
    stageName := replaced c.stageName p.stageName
    realName := replaced c.realName p.realName
    birthDate := replaced c.birthDate p.birthDate
    deathDate := replaced c.deathDate p.deathDate }

/-- What to change in what is known about a group. -/
structure GroupChanges where
  name : Option String := none
  startDate : Option String := none
  endDate : Option String := none
  deriving DecidableEq, Repr, Inhabited

/-- The group with the changes made; texts are trimmed. -/
def GroupChanges.apply (c : GroupChanges) (g : Group) : Group :=
  { g with
    name := replaced c.name g.name
    startDate := replaced c.startDate g.startDate
    endDate := replaced c.endDate g.endDate }

/-! ## Commands -/

/-- What can be done with the library. -/
inductive LibraryCommand where
  /-- Scan a folder for files with an extension; the settings say which unless the command does. -/
  | scan (root : Option Path) (extension : Option String)
  /-- List all tracks. -/
  | list (asJson : Bool)
  /-- List the tracks that the text in the search bar asks for. -/
  | search (text : String) (asJson : Bool)
  /-- Show a track and what is known about its performer. -/
  | details (id : Int)
  /-- Change what the library says about a track. -/
  | edit (id : Int) (changes : TrackChanges)
  /-- Say what a performer is. -/
  | classify (name : String) (kind : PerformerKind)
  /-- Add a person. -/
  | addPerson (person : Person)
  /-- Change what is known about a person. -/
  | updatePerson (id : Int) (changes : PersonChanges)
  /-- List all persons. -/
  | listPersons
  /-- Add a group. -/
  | addGroup (group : Group)
  /-- Change what is known about a group. -/
  | updateGroup (id : Int) (changes : GroupChanges)
  /-- Make a person a member of a group, both given by name. -/
  | join (person group : String)
  /-- List the members of a group. -/
  | members (group : String)
  /-- List all groups. -/
  | listGroups
  deriving DecidableEq, Repr

/-- What the program can be told to do. -/
inductive Command where
  | library (command : LibraryCommand)
  /-- Show the settings in force, and perhaps save them. -/
  | settings (save : Bool)
  deriving DecidableEq, Repr

/-- A command, and the file of the library if one was named. -/
structure Invocation where
  database : Option Path := none
  command : Command
  deriving DecidableEq, Repr

end Fonoteca
