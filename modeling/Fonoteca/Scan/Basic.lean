import Fonoteca.Disk.Discovery
import Fonoteca.Scan.Ingestion

/-!
# Scanning a folder

A scan finds the files below a folder, reads their tags and puts the tracks into the store.  The
stages run side by side, but what they do does not depend on how they take turns: the tracks reach
the store in the order in which the files were found, and whoever watches gets the new ones in that
order, each after it has been stored.

* `scan` is a scan of a folder of a disk, `scanFiles` one of files that were found already.
* `ScanSummary` is what it reports in the end.
-/

set_option autoImplicit false

namespace Fonoteca

/-- The totals of a scan. -/
structure ScanSummary where
  discovered : Nat := 0
  extracted : Nat := 0
  failed : Nat := 0
  inserted : Nat := 0
  skipped : Nat := 0
  deriving DecidableEq, Repr, Inhabited

/-- What the scan was doing when the store failed. -/
def ingesting : String := "ingesting scanned tracks"

/-- Puts the files that were found into the store: the new tracks that the watcher got, and the
totals or the failure. -/
def scanFiles (reader : TagReader) (patience : Patience) (paths : List Path) :
    StateM Store (List Track × Except LibraryError ScanSummary) := do
  let (tracks, extraction) := extract reader none paths
  let (accepted, result) ← populate patience tracks
  match result with
  | .error e => return (accepted, .error (.inContext ingesting (.store e)))
  | .ok ingestion =>
    return (accepted, .ok {
      discovered := paths.length
      extracted := extraction.extracted
      failed := extraction.failed.length
      inserted := ingestion.inserted
      skipped := ingestion.skipped })

/-- Puts the files of a disk that lie below a folder and have the extension into the store. -/
def scan {α : Type} (disk : Disk α) (reader : TagReader) (extension : String)
    (patience : Patience) (root : Path) :
    StateM Store (List Track × Except LibraryError ScanSummary) :=
  scanFiles reader patience (disk.discover root extension)

end Fonoteca
