import Fonoteca.Tags.Basic

/-!
# Extraction

The second stage of a scan reads the tags of the files that were found, in order, and sends a track
for each of them.  A file that cannot be read is skipped and reported.

* `Patience` says how long a receiver stays.
* `extract` is the stage: the tracks that the receiver got, and the report.
-/

set_option autoImplicit false

namespace Fonoteca

/-- How many tracks a receiver takes before it goes away; `none` if it stays to the end. -/
abbrev Patience := Option Nat

/-- The patience that is left after one more track. -/
def Patience.spend (p : Patience) : Patience :=
  p.map (· - 1)

/-- What the extraction reports. -/
structure ExtractionReport where
  /-- How many tracks were sent. -/
  extracted : Nat := 0
  /-- The files that cannot be read, each with the reason. -/
  failed : List (Path × String) := []
  deriving DecidableEq, Repr, Inhabited

/-- Reads the tags of some files in order and sends the tracks.  When a track finds the receiver
gone, the remaining files are not read. -/
def extract (reader : TagReader) : Patience → List Path → List Track × ExtractionReport
  | _, [] => ([], {})
  | patience, path :: paths =>
    match reader path with
    | .error e =>
      let (sent, report) := extract reader patience paths
      (sent, { report with failed := (path, e.message) :: report.failed })
    | .ok tags =>
      if patience = some 0 then ([], {})
      else
        let (sent, report) := extract reader patience.spend paths
        (Track.ofTags path tags :: sent, { report with extracted := report.extracted + 1 })

end Fonoteca
