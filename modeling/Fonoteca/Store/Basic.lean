import Fonoteca.Store.People
import Fonoteca.Store.Resolution
import Fonoteca.Store.Search

/-!
# The store

The store keeps the tables of the library while it is open, and refuses its requests once it has
been closed.  Each request either succeeds, and then may change the tables, or fails and leaves them
as they were.  Tables that may only be read refuse every change.

* `StoreM` is the type of requests, `Store.ask` and `Store.change` make one from a function on the
  tables.
* The requests themselves follow, one for each thing that the library does with its store.
* `Store.addRow` adds a row from outside, past the store.
-/

set_option autoImplicit false

namespace Fonoteca

/-- The tables of the library, and whether they can be reached. -/
structure Store where
  tables : Tables := {}
  isOpen : Bool := true
  /-- Whether the tables may only be read. -/
  readOnly : Bool := false
  /-- Whether the tables are in memory, where only the store itself reaches them. -/
  inMemory : Bool := false
  deriving DecidableEq, Repr, Inhabited

/-- A request to the store, which may fail and may change it. -/
abbrev StoreM := ExceptT StoreError (StateM Store)

namespace Store

variable {α : Type}

/-! ## Making requests -/

/-- The request that reads from the tables. -/
def ask (read : Tables → Except StoreError α) : StoreM α :=
  ExceptT.mk fun s =>
    if s.isOpen then (read s.tables, s) else (.error (.connectionLost .closed), s)

/-- Changes the tables, unless it fails or they may only be read. -/
def write (update : Tables → Except StoreError (α × Tables)) : StoreM α :=
  ExceptT.mk fun s =>
    if s.readOnly then (.error (.query .readOnly), s)
    else match update s.tables with
      | .ok (a, tables) => (.ok a, { s with tables })
      | .error e => (.error e, s)

/-- The request that changes the tables. -/
def change (update : Tables → Except StoreError (α × Tables)) : StoreM α :=
  ExceptT.mk fun s =>
    if s.isOpen then (write update).run s else (.error (.connectionLost .closed), s)

/-- What the database answers, with a failure classified. -/
def classify (r : Except Fault α) : Except StoreError α :=
  r.mapError StoreError.ofFault

/-- Closes the store. -/
def close : StoreM Unit :=
  ExceptT.mk fun s => (.ok (), { s with isOpen := false })

/-- Closes the store if it is open, and opens it again.  Tables that were in memory are lost. -/
def reopen : StoreM Unit :=
  ExceptT.mk fun s =>
    (.ok (), { s with isOpen := true, tables := if s.inMemory then {} else s.tables })

/-! ## Tracks -/

/-- The number of the performer of a name, who is added if there is none. -/
def resolvePerformer (name : String) : StoreM Int :=
  change fun t => classify (t.resolvePerformer name)

/-- The number of the album of a name in a folder, which is added if there is none. -/
def resolveAlbum (directory name : String) (year : Int32) : StoreM Int :=
  change fun t => classify (t.resolveAlbum directory name year)

/-- Adds a track unless there is one like it.  Numbers that no performer or album can have are
refused before the store is looked at. -/
def insertTrack (track : Track) (performer album : Int) : StoreM Insertion :=
  if performer ≤ 0 then throw (.missingReference .performer performer)
  else if album ≤ 0 then throw (.missingReference .album album)
  else change fun t => classify (t.insertTrack track performer album)

/-- The track with a number. -/
def track? (id : Int) : StoreM (Option Track) :=
  ask fun t => classify (t.readTrack id)

/-- Writes a track anew by the given performer on the given album. -/
def rewriteTrack (track : Track) (performer album : Int) : StoreM Unit := do
  let written ← change fun t => classify (t.rewriteTrack track performer album)
  if !written then throw (.notFound .track track.id)

/-- Resolves the artist and the album of a track anew and writes it back.  What has been resolved
stays even if the track cannot be written. -/
def restoreTrack (track : Track) : StoreM Unit := do
  let performer ← resolvePerformer track.artist
  let album ← resolveAlbum track.albumDir track.album track.year
  rewriteTrack track performer album

/-- Writes a changed track back. -/
def updateTrack (track : Track) : StoreM Unit := do
  if (← track? track.id).isNone then throw (.notFound .track track.id)
  restoreTrack track

/-- All tracks in the order of their numbers. -/
def tracks : StoreM (List Track) :=
  ask fun t => classify t.readTracks

/-- The numbers of the performer and the album of a track. -/
def references? (id : Int) : StoreM (Option (Int × Int)) :=
  ask fun t => .ok ((t.track? id).map fun r => (r.performer, r.album))

/-- The album with a number. -/
def album? (id : Int) : StoreM (Option Album) :=
  ask fun t => classify ((t.album? id).mapM AlbumRow.toAlbum)

/-- The number of the performer of exactly this name. -/
def performerNamed? (name : String) : StoreM (Option Int) :=
  ask fun t => .ok (t.performerNamed? name)

/-- The number of the album of a name in a folder. -/
def albumNamed? (directory name : String) : StoreM (Option Int) :=
  ask fun t => .ok (t.albumNamed? directory name)

/-! ## Searching -/

/-- The numbers of the tracks that a filter admits. -/
def matching (plan : Plan) (f : Filter) : StoreM (List Int) :=
  ask fun t => classify (t.matching plan f)

/-- The numbers of the tracks in which a text occurs. -/
def containing (text : String) : StoreM (List Int) :=
  ask fun t => classify (t.containing text)

/-- The numbers of the tracks that the text in the search bar asks for. -/
def search (plan : Plan) (text : String) : StoreM (List Int) :=
  ask fun t => classify (t.search plan text)

/-! ## Performers, persons and groups -/

/-- The performer with a number. -/
def performer? (id : Int) : StoreM (Option Performer) :=
  ask fun t => .ok (t.performer? id)

/-- Gives a performer another kind. -/
def setKind (id : Int) (kind : PerformerKind) : StoreM Unit :=
  change fun t => .ok ((), t.setKind id kind)

/-- Adds a person, and gives the person's number. -/
def addPerson (p : Person) : StoreM Int :=
  change fun t => .ok (t.addPerson p)

/-- The person with a number. -/
def person? (id : Int) : StoreM (Option Person) :=
  ask fun t => .ok (t.person? id)

/-- The number of the first person of a stage name. -/
def personNamed? (stageName : String) : StoreM (Option Int) :=
  ask fun t => .ok (t.personNamed? stageName)

/-- Puts a person in the place of the one with the same number. -/
def updatePerson (p : Person) : StoreM Unit :=
  change fun t => .ok ((), t.updatePerson p)

/-- Adds a group, and gives its number. -/
def addGroup (g : Group) : StoreM Int :=
  change fun t => .ok (t.addGroup g)

/-- The group with a number. -/
def group? (id : Int) : StoreM (Option Group) :=
  ask fun t => .ok (t.group? id)

/-- The number of the first group of a name. -/
def groupNamed? (name : String) : StoreM (Option Int) :=
  ask fun t => .ok (t.groupNamed? name)

/-- Puts a group in the place of the one with the same number. -/
def updateGroup (g : Group) : StoreM Unit :=
  change fun t => .ok ((), t.updateGroup g)

/-- Makes a person a member of a group. -/
def join (person group : Int) : StoreM Unit :=
  change fun t => classify ((t.addMembership person group).map ((), ·))

/-- The stage names of the members of a group, sorted. -/
def members (group : Int) : StoreM (List String) :=
  ask fun t => .ok (t.members group)

/-- The names of the groups of a person, sorted. -/
def groupsOf (person : Int) : StoreM (List String) :=
  ask fun t => .ok (t.groupsOf person)

/-- The stage names of all persons with their numbers, by name. -/
def personNames : StoreM (List (String × Int)) :=
  ask fun t => .ok t.personNames

/-- The names of all groups with their numbers, by name. -/
def groupNames : StoreM (List (String × Int)) :=
  ask fun t => .ok t.groupNames

/-! ## Rows as they are -/

/-- Adds a row to a table from outside: the store need not be open, but its tables have to be where
others reach them. -/
def addRow (table : String) (add : Tables → Except Fault (Int × Tables)) : StoreM Int :=
  ExceptT.mk fun s =>
    if s.inMemory then (.error (.query (.noTable table)), s)
    else (write fun t => classify (add t)).run s

/-- Adds a performer's row that only the constraints of the table check. -/
def addPerformerRow (kind : Option Int) (name : Option String) : StoreM Int :=
  addRow "performers" fun t => t.addPerformer kind name

/-- Adds an album's row that only the constraints of the table check. -/
def addAlbumRow (directory name : Option String) (year : Option Int) : StoreM Int :=
  addRow "albums" fun t => t.addAlbum directory name year

/-- Adds a track's row that only the constraints of the table check. -/
def addTrackRow (performer album : Option Int) (path title : Option String)
    (number year : Option Int) (genre : Option String) : StoreM Int :=
  addRow "rolas" fun t => t.addTrack performer album path title number year genre

end Store
end Fonoteca
