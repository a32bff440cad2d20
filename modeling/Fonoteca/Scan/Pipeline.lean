import Fonoteca.Scan.Basic

/-!
# A scan under way

The stages of a scan share nothing but two queues without bounds.  In the ore the extraction leaves
the tracks that it has made, and in the other the ingestion leaves those that were new.  Here a scan
under way is a state, and whoever gets a turn makes one move: the extraction reads a file or sends a
track, the ingestion takes a track, stores it or passes it on, and the consumer takes a track or
goes away.  Who has nothing to do passes the turn.

* `Pipeline` is a scan under way, and `Pipeline.start` one that has not begun.
* `Pipeline.turn` is one move, and `Pipeline.run` the moves of a schedule, whatever it is.
* `Pipeline.result?` is what the scan reports once its stages are over.

Nobody but the ingestion touches the store meanwhile, so all that it does there for one track counts
as one move.
-/

set_option autoImplicit false

namespace Fonoteca

/-- What the extraction is going to do next. -/
inductive Extracting where
  /-- It has to be told which files there are. -/
  | discovering
  /-- It reads the first of the files that are left. -/
  | reading (paths : List Path)
  /-- It sends the track of a file that it has read. -/
  | sending (track : Track) (paths : List Path)
  | finished
  deriving DecidableEq, Repr

/-- What the ingestion is going to do next. -/
inductive Ingesting where
  /-- It receives a track, as soon as there is one. -/
  | waiting
  /-- It stores a track that it has received. -/
  | storing (track : Track)
  /-- It passes on a track that was new. -/
  | forwarding (new : Track)
  | finished
  /-- The store has failed. -/
  | failed (e : StoreError)
  deriving DecidableEq, Repr

/-- Whether the ingestion is over, and with it the ore that it takes and the queue that it fills. -/
def Ingesting.isOver : Ingesting → Bool
  | .finished => true
  | .failed _ => true
  | _ => false

/-- A scan under way. -/
structure Pipeline where
  store : Store
  /-- How many files were found. -/
  discovered : Nat := 0
  extracting : Extracting := .discovering
  /-- What the extraction has counted so far. -/
  extraction : ExtractionReport := {}
  /-- The tracks that were sent and not received yet. -/
  ore : List Track := []
  ingesting : Ingesting := .waiting
  /-- What the ingestion has counted so far. -/
  ingestion : IngestionReport := {}
  /-- The new tracks so far, in the order in which they were stored. -/
  added : List Track := []
  /-- Whether the ingestion has found out that the consumer is gone. -/
  consumerGone : Bool := false
  /-- The new tracks that wait for the consumer. -/
  accepted : List Track := []
  /-- Whether the consumer is still there. -/
  watching : Bool := true
  /-- The tracks that the consumer took. -/
  received : List Track := []
  deriving DecidableEq, Repr

namespace Pipeline

/-- Who gets a turn. -/
inductive Turn where
  | extraction
  | ingestion
  /-- The consumer takes a track. -/
  | take
  /-- The consumer goes away. -/
  | leave
  deriving DecidableEq, Repr

/-- A scan that has not begun. -/
def start (store : Store) : Pipeline where
  store := store

/-- One move of the extraction, on the files that were found.  A track is not sent, and no file is
read any more, if the ore was closed. -/
def extractionTurn (files : List Path) (reader : TagReader) (p : Pipeline) : Pipeline :=
  match p.extracting with
  | .discovering => { p with extracting := .reading files, discovered := files.length }
  | .reading [] => { p with extracting := .finished }
  | .reading (path :: paths) =>
    match reader path with
    | .ok tags => { p with extracting := .sending (Track.ofTags path tags) paths }
    | .error e =>
      { p with extracting := .reading paths,
               extraction := { p.extraction with
                 failed := p.extraction.failed ++ [(path, e.message)] } }
  | .sending track paths =>
    if p.ingesting.isOver then { p with extracting := .finished }
    else
      { p with extracting := .reading paths,
               extraction := { p.extraction with extracted := p.extraction.extracted + 1 },
               ore := p.ore ++ [track] }
  | .finished => p

/-- One move of the ingestion.  It is over when the ore is empty and no more will come, or when the
store fails; what is left in the ore is then lost. -/
def ingestionTurn (p : Pipeline) : Pipeline :=
  match p.ingesting with
  | .waiting =>
    match p.ore, p.extracting with
    | track :: ore, _ => { p with ore, ingesting := .storing track }
    | [], .finished => { p with ingesting := .finished }
    | [], _ => p
  | .storing track =>
    match (ingest track).run.run p.store with
    | (.ok none, store) =>
      { p with store, ingesting := .waiting,
               ingestion := { p.ingestion with skipped := p.ingestion.skipped + 1 } }
    | (.ok (some new), store) =>
      { p with store, ingesting := .forwarding new,
               ingestion := { p.ingestion with inserted := p.ingestion.inserted + 1 },
               added := p.added ++ [new] }
    | (.error e, store) => { p with store, ingesting := .failed e, ore := [] }
  | .forwarding new =>
    if p.consumerGone then { p with ingesting := .waiting }
    else if p.watching then { p with ingesting := .waiting, accepted := p.accepted ++ [new] }
    else { p with ingesting := .waiting, consumerGone := true }
  | .finished => p
  | .failed _ => p

/-- The consumer takes the track that has waited longest. -/
def take (p : Pipeline) : Pipeline :=
  match p.accepted with
  | track :: accepted => { p with accepted, received := p.received ++ [track] }
  | [] => p

/-- The consumer goes away, and the tracks that wait are lost. -/
def leave (p : Pipeline) : Pipeline :=
  { p with watching := false, accepted := [] }

/-- Whoever gets the turn makes a move. -/
def turn (files : List Path) (reader : TagReader) (p : Pipeline) : Turn → Pipeline
  | .extraction => p.extractionTurn files reader
  | .ingestion => p.ingestionTurn
  | .take => p.take
  | .leave => p.leave

/-- The moves of a schedule in order. -/
def run (files : List Path) (reader : TagReader) (schedule : List Turn) (p : Pipeline) : Pipeline :=
  schedule.foldl (turn files reader) p

/-- What the scan reports, once both stages are over. -/
def result? (p : Pipeline) : Option (Except LibraryError ScanSummary) :=
  match p.extracting, p.ingesting with
  | .finished, .finished => some (.ok {
      discovered := p.discovered
      extracted := p.extraction.extracted
      failed := p.extraction.failed.length
      inserted := p.ingestion.inserted
      skipped := p.ingestion.skipped })
  | .finished, .failed e => some (.error (.inContext Fonoteca.ingesting (.store e)))
  | _, _ => none

end Pipeline
end Fonoteca
