import Fonoteca.Store.Tables

/-!
# Resolving names and inserting tracks

A track refers to its performer and to its album by number.  Resolving a name gives that number, and
adds the performer or the album if the tables do not have it yet.

* `Tables.resolvePerformer` and `Tables.resolveAlbum` resolve.  Performers go by their trimmed name;
  albums go by folder and name, whatever the year.
* `Tables.insertTrack` adds a track unless the tables have one of the same path, or one of the same
  performer, album, genre and title.
* `Tables.rewriteTrack` writes the row of a track anew.  The path of a track never changes.
-/

set_option autoImplicit false

namespace Fonoteca

/-- The outcome of inserting a track. -/
inductive Insertion where
  /-- The track was added and has this number. -/
  | inserted (id : Int)
  /-- The tables have such a track already. -/
  | alreadyPresent
  deriving DecidableEq, Repr, Inhabited

namespace Tables

/-! ## Resolving -/

/-- The number that a look-up has found; there has to be one. -/
def found (id? : Option Int) : Except Fault Int :=
  match id? with
  | some id => .ok id
  | none => .error .rowNotFound

/-- The number of the performer of a name, who is added under the constraints of the table if there
is none. -/
def resolvePerformer (t : Tables) (name : String) : Except Fault (Int × Tables) := do
  let name := Text.trim name
  let t ← if (t.performerNamed? name).isSome then pure t
    else Prod.snd <$> t.addPerformer (some PerformerKind.unknown.code) (some name)
  return (← found (t.performerNamed? name), t)

/-- The number of the album of a name in a folder, which is added under the constraints of the table
if there is none. -/
def resolveAlbum (t : Tables) (directory name : String) (year : Int32) :
    Except Fault (Int × Tables) := do
  let t ← if (t.albumNamed? directory name).isSome then pure t
    else Prod.snd <$> t.addAlbum (some directory) (some name) (some year.toInt)
  return (← found (t.albumNamed? directory name), t)

/-! ## Inserting -/

/-- Whether a row is in the way of a track by the given performer on the given album: it has the
path of the track, or else the names of the two, and the genre and the title of the track. -/
def blocks (t : Tables) (track : Track) (performer album : Int) (r : JoinedRow) : Bool :=
  r.path = track.path ∨
    ((t.performer? performer).map (·.name) = some r.artist ∧
      (t.album? album).map (·.name) = some r.album ∧ r.genre = track.genre ∧ r.title = track.title)

/-- Adds a track by the given performer on the given album, unless a row is in the way. -/
def insertTrack (t : Tables) (track : Track) (performer album : Int) :
    Except Fault (Insertion × Tables) :=
  if t.joined.any (t.blocks track performer album) then .ok (.alreadyPresent, t)
  else do
    let (id, t) ← t.addTrack (some performer) (some album) (some track.path) (some track.title)
      (some track.number.toNat) (some track.year.toInt) (some track.genre)
    return (.inserted id, t)

/-! ## Reading and changing -/

/-- The track with a number, if there is one. -/
def readTrack (t : Tables) (id : Int) : Except Fault (Option Track) :=
  match t.joined.find? (·.id = id) with
  | some r => r.toTrack.map some
  | none => .ok none

/-- All tracks in the order of their numbers. -/
def readTracks (t : Tables) : Except Fault (List Track) :=
  t.joined.mapM JoinedRow.toTrack

/-- The tables with the row of a track written anew; its path stays. -/
def replaceTrack (t : Tables) (track : Track) (performer album : Int) : Tables :=
  { t with tracks := t.tracks.map fun r =>
      if r.id = track.id then
        { r with performer, album, title := track.title, number := track.number.toNat,
                 year := track.year.toInt, genre := track.genre }
      else r }

/-- Writes a track anew by the given performer on the given album, who have to be there, and says
whether there is a track of its number. -/
def rewriteTrack (t : Tables) (track : Track) (performer album : Int) :
    Except Fault (Bool × Tables) := do
  if (t.track? track.id).isNone then return (false, t)
  demand ((t.performer? performer).isSome ∧ (t.album? album).isSome) .danglingReference
  return (true, t.replaceTrack track performer album)

end Tables
end Fonoteca
