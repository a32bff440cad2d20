import Fonoteca.Scan.Extraction
import Fonoteca.Store.Basic

/-!
# Ingestion

The last stage of a scan puts tracks into the store and passes on those that are new, each with the
identity that the store gave it.  Tracks that the store has already are dropped.

* `ingest` puts in one track.
* `populate` puts in a list of them.  The first failure of the store ends it; a consumer of the new
  tracks who goes away does not.
-/

set_option autoImplicit false

namespace Fonoteca

/-- What the ingestion reports. -/
structure IngestionReport where
  /-- How many tracks were new. -/
  inserted : Nat := 0
  /-- How many tracks the store had already. -/
  skipped : Nat := 0
  deriving DecidableEq, Repr, Inhabited

/-- Puts a track into the store, with its performer and album, and gives it back with its identity
if it is new. -/
def ingest (track : Track) : StoreM (Option Track) := do
  let performer ← match ← Store.performerNamed? track.artist with
    | some id => pure id
    | none => Store.resolvePerformer track.artist
  let album ← match ← Store.albumNamed? track.albumDir track.album with
    | some id => pure id
    | none => Store.resolveAlbum track.albumDir track.album track.year
  match ← Store.insertTrack track performer album with
  | .inserted id => return some (track.assignId id).2
  | .alreadyPresent => return none

/-- The tracks that a consumer got, with one more in front if the consumer was still there. -/
def Patience.receive (p : Patience) (track : Track) (rest : List Track) : List Track :=
  if p = some 0 then rest else track :: rest

/-- Puts tracks into the store in order: the new tracks that the consumer got, and the report, or
the failure that ended it. -/
def populate : Patience → List Track →
    StateM Store (List Track × Except StoreError IngestionReport)
  | _, [] => return ([], .ok {})
  | patience, track :: tracks => do
    match ← (ingest track).run with
    | .error e => return ([], .error e)
    | .ok (some new) =>
      let (accepted, result) ← populate patience.spend tracks
      return (patience.receive new accepted,
        result.map fun r => { r with inserted := r.inserted + 1 })
    | .ok none =>
      let (accepted, result) ← populate patience tracks
      return (accepted, result.map fun r => { r with skipped := r.skipped + 1 })

end Fonoteca
