import Fonoteca.Scan.Basic

/-!
# Requests and answers

Everything that can be asked of a store, as data, so that one can speak of a history of requests and
of the answers to it.

* `Request` are the requests, `Answer` what the store may answer.
* `Request.run` answers one request, `Request.runAll` a history of them in order.
-/

set_option autoImplicit false

namespace Fonoteca

/-- What can be asked of a store. -/
inductive Request where
  | resolvePerformer (name : String)
  | resolveAlbum (directory name : String) (year : Int32)
  | insertTrack (track : Track) (performer album : Int)
  | populate (tracks : List Track) (patience : Patience)
  | scan (reader : TagReader) (paths : List Path) (patience : Patience)
  | search (plan : Plan) (text : String)
  | matching (plan : Plan) (query : Query)
  | containing (text : String)
  | track (id : Int)
  | tracks
  | references (id : Int)
  | album (id : Int)
  | updateTrack (track : Track)
  | performerNamed (name : String)
  | albumNamed (directory name : String)
  | personNamed (stageName : String)
  | groupNamed (name : String)
  | performer (id : Int)
  | setKind (id : Int) (kind : PerformerKind)
  | addPerson (person : Person)
  | person (id : Int)
  | updatePerson (person : Person)
  | addGroup (group : Group)
  | group (id : Int)
  | updateGroup (group : Group)
  | join (person group : Int)
  | members (group : Int)
  | groupsOf (person : Int)
  | personNames
  | groupNames
  | close
  | reopen
  | addPerformerRow (kind : Option Int) (name : Option String)
  | addAlbumRow (directory name : Option String) (year : Option Int)
  | addTrackRow (performer album : Option Int) (path title : Option String)
      (number year : Option Int) (genre : Option String)

/-- What a store may answer. -/
inductive Answer where
  | done
  | id (n : Int)
  | id? (n : Option Int)
  | ids (ns : List Int)
  | insertion (i : Insertion)
  | track? (t : Option Track)
  | tracks (ts : List Track)
  | references? (ids : Option (Int × Int))
  | album? (a : Option Album)
  | performer? (p : Option Performer)
  | person? (p : Option Person)
  | group? (g : Option Group)
  | names (ns : List String)
  | named (entries : List (String × Int))
  | populated (accepted : List Track) (report : IngestionReport)
  | scanned (accepted : List Track) (summary : ScanSummary)
  | refused (e : StoreError)
  /-- The failure of a search. -/
  | unsearchable (e : LibraryError)
  /-- The failure of an ingestion, after a consumer got some tracks. -/
  | unpopulated (accepted : List Track) (e : StoreError)
  /-- The failure of a scan, after a watcher got some tracks. -/
  | unscanned (accepted : List Track) (e : LibraryError)
  deriving DecidableEq, Repr

/-- The answer to a request that succeeds with a value, or is refused. -/
def StoreM.answer {α : Type} (request : StoreM α) (say : α → Answer) : StateM Store Answer := do
  match ← request.run with
  | .ok a => return say a
  | .error e => return .refused e

/-- The answer to a search. -/
def answerSearch (plan : Plan) (text : String) : StateM Store Answer := do
  match ← (Store.search plan text).run with
  | .ok ns => return .ids ns
  | .error e => return .unsearchable (.store e)

/-- The answer to an ingestion. -/
def answerPopulate (patience : Patience) (tracks : List Track) : StateM Store Answer := do
  match ← populate patience tracks with
  | (accepted, .ok report) => return .populated accepted report
  | (accepted, .error e) => return .unpopulated accepted e

/-- The answer to a scan. -/
def answerScan (reader : TagReader) (patience : Patience) (paths : List Path) :
    StateM Store Answer := do
  match ← scanFiles reader patience paths with
  | (accepted, .ok summary) => return .scanned accepted summary
  | (accepted, .error e) => return .unscanned accepted e

namespace Request

open StoreM in
/-- Answers a request. -/
def run : Request → StateM Store Answer
  | .resolvePerformer name => answer (Store.resolvePerformer name) .id
  | .resolveAlbum directory name year => answer (Store.resolveAlbum directory name year) .id
  | .insertTrack t p a => answer (Store.insertTrack t p a) .insertion
  | .populate ts patience => answerPopulate patience ts
  | .scan reader paths patience => answerScan reader patience paths
  | .search plan text => answerSearch plan text
  | .matching plan q => answer (Store.matching plan q.toFilter) .ids
  | .containing text => answer (Store.containing text) .ids
  | .track id => answer (Store.track? id) .track?
  | .tracks => answer Store.tracks .tracks
  | .references id => answer (Store.references? id) .references?
  | .album id => answer (Store.album? id) .album?
  | .updateTrack t => answer (Store.updateTrack t) fun _ => .done
  | .performerNamed name => answer (Store.performerNamed? name) .id?
  | .albumNamed directory name => answer (Store.albumNamed? directory name) .id?
  | .personNamed stageName => answer (Store.personNamed? stageName) .id?
  | .groupNamed name => answer (Store.groupNamed? name) .id?
  | .performer id => answer (Store.performer? id) .performer?
  | .setKind id kind => answer (Store.setKind id kind) fun _ => .done
  | .addPerson p => answer (Store.addPerson p) .id
  | .person id => answer (Store.person? id) .person?
  | .updatePerson p => answer (Store.updatePerson p) fun _ => .done
  | .addGroup g => answer (Store.addGroup g) .id
  | .group id => answer (Store.group? id) .group?
  | .updateGroup g => answer (Store.updateGroup g) fun _ => .done
  | .join p g => answer (Store.join p g) fun _ => .done
  | .members g => answer (Store.members g) .names
  | .groupsOf p => answer (Store.groupsOf p) .names
  | .personNames => answer Store.personNames .named
  | .groupNames => answer Store.groupNames .named
  | .close => answer Store.close fun _ => .done
  | .reopen => answer Store.reopen fun _ => .done
  | .addPerformerRow kind name => answer (Store.addPerformerRow kind name) .id
  | .addAlbumRow directory name year => answer (Store.addAlbumRow directory name year) .id
  | .addTrackRow p a path title number year genre =>
    answer (Store.addTrackRow p a path title number year genre) .id

/-- Answers a history of requests in order. -/
def runAll (requests : List Request) : StateM Store (List Answer) :=
  requests.mapM run

end Request
end Fonoteca
