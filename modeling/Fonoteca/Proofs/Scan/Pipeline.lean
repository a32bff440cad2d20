import Fonoteca.Proofs.Scan.Extraction
import Fonoteca.Scan.Pipeline

/-!
# What a scan under way comes to

However the stages of a scan take turns, what has been done already and what would come of the rest,
were it done at once, make up the same whole.

* `Pipeline.outcome` is this whole for the store, the report of the ingestion and the new tracks,
  and `Pipeline.yield` is it for the report of the extraction.
* **`Pipeline.outcome_extractionTurn`** and **`Pipeline.outcome_ingestionTurn`** : these moves
  do not change it.
* `Pipeline.Follows` says that the whole is what the stages come to one after the other, and
  **`Pipeline.Follows.run`** that this is so after all moves of any schedule.
* **`Pipeline.Follows.scanFiles`** : when a scan is over, it has come to what `scanFiles` says.
-/

set_option autoImplicit false

namespace Fonoteca

/-! ## Reports -/

/-- The report of a part together with that of the rest. -/
def ExtractionReport.plus (r rest : ExtractionReport) : ExtractionReport where
  extracted := r.extracted + rest.extracted
  failed := r.failed ++ rest.failed

@[inherit_doc ExtractionReport.plus]
def IngestionReport.plus (r rest : IngestionReport) : IngestionReport where
  inserted := r.inserted + rest.inserted
  skipped := r.skipped + rest.skipped

/-- A track may be counted with those before it or with those behind it. -/
theorem IngestionReport.count_plus (r rest : IngestionReport) (new : Option Track) :
    (r.count new).plus rest = r.plus (rest.count new) := by
  cases new with
  | none => exact congrArg (mk _) (Nat.add_right_comm _ 1 _)
  | some new => exact congrArg (mk · _) (Nat.add_right_comm _ 1 _)

/-- What a scan of some files reports, given what the ingestion of their tracks has come to. -/
def TagReader.conclude (reader : TagReader) (files : List Path) :
    Except StoreError IngestionReport → Except LibraryError ScanSummary
  | .error e => .error (.inContext ingesting (.store e))
  | .ok report => .ok {
      discovered := files.length
      extracted := (reader.tracks files).length
      failed := (reader.failures files).length
      inserted := report.inserted
      skipped := report.skipped }

/-- A scan whose stages wait for each other. -/
theorem run_scanFiles (reader : TagReader) (patience : Patience) (files : List Path) (s : Store) :
    (scanFiles reader patience files).run s =
      let ((got, result), s') := (populate patience (reader.tracks files)).run s
      ((got, reader.conclude files result), s') := by
  rw [scanFiles, extract_none, StateT.run_bind]
  rcases (populate patience (reader.tracks files)).run s with ⟨⟨got, e | report⟩, s'⟩ <;> rfl

/-! ## What is to come -/

variable {files : List Path} {reader : TagReader}

/-- The tracks that the extraction is still going to send. -/
def Extracting.toSend (files : List Path) (reader : TagReader) : Extracting → List Track
  | .discovering => reader.tracks files
  | .reading paths => reader.tracks paths
  | .sending track paths => track :: reader.tracks paths
  | .finished => []

/-- What the extraction is still going to count. -/
def Extracting.toReport (files : List Path) (reader : TagReader) : Extracting → ExtractionReport
  | .discovering => reader.report files
  | .reading paths => reader.report paths
  | .sending _ paths => { reader.report paths with extracted := (reader.tracks paths).length + 1 }
  | .finished => {}

/-- The track that the ingestion has received and not stored yet. -/
def Ingesting.inHand : Ingesting → List Track
  | .storing track => [track]
  | _ => []

theorem Ingesting.isOver_iff {i : Ingesting} :
    i.isOver = true ↔ i = .finished ∨ ∃ e, i = .failed e := by
  cases i <;> simp [isOver]

/-- The new track that the ingestion has stored and not passed on yet. -/
def Ingesting.toForward : Ingesting → List Track
  | .forwarding new => [new]
  | _ => []

namespace Pipeline

variable {p : Pipeline}

/-- The tracks that are not stored yet, in the order in which the ingestion gets them. -/
def upcoming (files : List Path) (reader : TagReader) (p : Pipeline) : List Track :=
  p.ingesting.inHand ++ p.ore ++ p.extracting.toSend files reader

/-- The new tracks and the report of an ingestion together with those of the rest. -/
def completed (p : Pipeline) (rest : (List Track × Except StoreError IngestionReport) × Store) :
    (List Track × Except StoreError IngestionReport) × Store :=
  ((p.added ++ rest.1.1, rest.1.2.map p.ingestion.plus), rest.2)

/-- An ingestion that has done nothing yet comes to what the rest comes to. -/
theorem completed_of_none (hadded : p.added = []) (hingestion : p.ingestion = {})
    (rest : (List Track × Except StoreError IngestionReport) × Store) :
    p.completed rest = rest := by
  obtain ⟨⟨added, result⟩, s⟩ := rest
  have hresult : result.map (IngestionReport.plus {}) = result := by
    cases result with
    | error e => rfl
    | ok report => simp [Except.map, IngestionReport.plus]
  rw [completed, hadded, hingestion, List.nil_append, hresult]

/-- What the ingestion comes to, if all the tracks to come are put into the store at once: the new
tracks, the report or the failure, and the store. -/
def outcome (files : List Path) (reader : TagReader) (p : Pipeline) :
    (List Track × Except StoreError IngestionReport) × Store :=
  match p.ingesting with
  | .finished => ((p.added, .ok p.ingestion), p.store)
  | .failed e => ((p.added, .error e), p.store)
  | _ => p.completed ((populate none (p.upcoming files reader)).run p.store)

/-- What the extraction comes to, if all the files that are left are read at once. -/
def yield (files : List Path) (reader : TagReader) (p : Pipeline) : ExtractionReport :=
  p.extraction.plus (p.extracting.toReport files reader)

/-! ## The moves of the extraction -/

/-- The extraction touches nothing but its own things and the ore. -/
theorem extractionTurn_frame (files : List Path) (reader : TagReader) (p : Pipeline) :
    ∃ discovered extracting extraction ore, p.extractionTurn files reader =
      { p with discovered, extracting, extraction, ore } := by
  rw [extractionTurn]
  split
  · exact ⟨_, _, _, _, rfl⟩
  · exact ⟨_, _, _, _, rfl⟩
  · split
    · exact ⟨_, _, _, _, rfl⟩
    · exact ⟨_, _, _, _, rfl⟩
  · split
    · exact ⟨_, _, _, _, rfl⟩
    · exact ⟨_, _, _, _, rfl⟩
  · exact ⟨_, _, _, _, rfl⟩

/-- While the ore is open, the extraction does not change which tracks are to come. -/
theorem upcoming_extractionTurn (files : List Path) (reader : TagReader)
    (h : p.ingesting.isOver = false) :
    (p.extractionTurn files reader).upcoming files reader = p.upcoming files reader := by
  rw [extractionTurn]
  split
  · next hx => simp [upcoming, hx, Extracting.toSend]
  · next hx => simp [upcoming, hx, Extracting.toSend, TagReader.tracks]
  · next path paths hx =>
    split
    · next tags hread => simp [upcoming, hx, Extracting.toSend, TagReader.tracks_of_ok hread]
    · next e hread => simp [upcoming, hx, Extracting.toSend, TagReader.tracks_of_error hread]
  · next track paths hx =>
    rw [if_neg (by simp [h])]
    simp [upcoming, hx, Extracting.toSend]
  · rfl

/-- **The extraction does not change what the ingestion comes to.** -/
theorem outcome_extractionTurn (files : List Path) (reader : TagReader) (p : Pipeline) :
    (p.extractionTurn files reader).outcome files reader = p.outcome files reader := by
  obtain ⟨_, _, _, _, hp⟩ := p.extractionTurn_frame files reader
  by_cases h : p.ingesting.isOver = true
  · rw [hp]
    rcases Ingesting.isOver_iff.1 h with hi | ⟨e, hi⟩ <;> simp only [outcome, hi]
  · have hupcoming := upcoming_extractionTurn files reader (p := p) (by simpa using h)
    rw [hp] at hupcoming ⊢
    simp only [outcome, completed, hupcoming]

/-- **What the extraction comes to does not change** unless the ore is closed before its time. -/
theorem yield_extractionTurn (h : p.ingesting.isOver = true → p.extracting = .finished) :
    (p.extractionTurn files reader).yield files reader = p.yield files reader := by
  rw [extractionTurn]
  split
  · next hx => rw [yield, yield, hx]; rfl
  · next hx => rw [yield, yield, hx]; rfl
  · next path paths hx =>
    split
    · next tags hread =>
      simp [yield, hx, Extracting.toReport, TagReader.report, TagReader.tracks_of_ok hread,
        TagReader.failures_of_ok hread]
    · next e hread =>
      simp [yield, hx, Extracting.toReport, TagReader.report, ExtractionReport.plus,
        TagReader.tracks_of_error hread, TagReader.failures_of_error hread]
  · next track paths hx =>
    have hopen : ¬ p.ingesting.isOver = true := fun hover => by simp [h hover] at hx
    rw [if_neg hopen]
    simp only [yield, hx, Extracting.toReport, TagReader.report, ExtractionReport.plus,
      Nat.add_assoc, Nat.add_comm 1]
  · rfl

/-! ## The moves of the ingestion -/

/-- The ingestion touches neither the files nor what the consumer took. -/
theorem ingestionTurn_frame (p : Pipeline) :
    ∃ store ore ingesting ingestion added consumerGone accepted, p.ingestionTurn =
      { p with store, ore, ingesting, ingestion, added, consumerGone, accepted } := by
  rw [ingestionTurn]
  split
  · split <;> exact ⟨_, _, _, _, _, _, _, rfl⟩
  · split <;> exact ⟨_, _, _, _, _, _, _, rfl⟩
  · split
    · exact ⟨_, _, _, _, _, _, _, rfl⟩
    · split <;> exact ⟨_, _, _, _, _, _, _, rfl⟩
  · exact ⟨_, _, _, _, _, _, _, rfl⟩
  · exact ⟨_, _, _, _, _, _, _, rfl⟩

/-- A track that was stored may be counted with those before it or with those to come. -/
theorem completed_count {p q : Pipeline} {new : Option Track}
    (hadded : q.added = p.added ++ new.toList) (hingestion : q.ingestion = p.ingestion.count new)
    (rest : (List Track × Except StoreError IngestionReport) × Store) :
    q.completed rest =
      p.completed ((Patience.hand none new rest.1.1, rest.1.2.map (·.count new)), rest.2) := by
  have htracks : q.added ++ rest.1.1 = p.added ++ Patience.hand none new rest.1.1 := by
    rw [hadded, List.append_assoc]
    cases new <;> rfl
  have hreport : rest.1.2.map q.ingestion.plus =
      (rest.1.2.map (·.count new)).map p.ingestion.plus := by
    rw [hingestion]
    cases rest.1.2 with
    | error e => rfl
    | ok report => exact congrArg Except.ok (IngestionReport.count_plus _ _ _)
  rw [completed, completed, htracks, hreport]

theorem outcome_of_storing {track : Track} (h : p.ingesting = .storing track) :
    p.outcome files reader =
      p.completed ((populate none (track :: (p.ore ++ p.extracting.toSend files reader))).run
        p.store) := by
  simp only [outcome, upcoming, h, Ingesting.inHand, List.cons_append, List.nil_append]

/-- **What the ingestion comes to does not change** by its own moves. -/
theorem outcome_ingestionTurn (files : List Path) (reader : TagReader) (p : Pipeline) :
    p.ingestionTurn.outcome files reader = p.outcome files reader := by
  rw [ingestionTurn]
  split
  · next hi =>
    split
    · next track ore hore => simp [outcome, upcoming, completed, hi, hore, Ingesting.inHand]
    · next hore hx =>
      have hnone : p.upcoming files reader = [] := by
        simp [upcoming, hi, hore, hx, Ingesting.inHand, Extracting.toSend]
      simp only [outcome, hi, hnone]
      exact congrArg (fun added => ((added, Except.ok p.ingestion), p.store))
        (List.append_nil p.added).symm
    · rfl
  · next track hi =>
    rw [outcome_of_storing hi, run_populate_cons]
    split
    · next store hrun =>
      rw [hrun]
      simp only [outcome, upcoming, Ingesting.inHand, List.nil_append]
      exact completed_count (List.append_nil _).symm rfl _
    · next new store hrun =>
      rw [hrun]
      simp only [outcome, upcoming, Ingesting.inHand, List.nil_append]
      exact completed_count rfl rfl _
    · next e store hrun =>
      rw [hrun]
      exact congrArg (fun added => ((added, Except.error e), store)) (List.append_nil p.added).symm
  · next new hi =>
    split
    · simp [outcome, upcoming, completed, hi, Ingesting.inHand]
    · split <;> simp [outcome, upcoming, completed, hi, Ingesting.inHand]
  · rfl
  · rfl

/-- The new tracks so far are the first of those that there will be. -/
theorem added_prefix_of_outcome {added : List Track} {result : Except StoreError IngestionReport}
    {s : Store} (h : p.outcome files reader = ((added, result), s)) : p.added <+: added := by
  rw [outcome] at h
  split at h
  · rw [show p.added = added from congrArg (·.1.1) h]
  · rw [show p.added = added from congrArg (·.1.1) h]
  · exact ⟨_, congrArg (·.1.1) h⟩

/-! ## The whole stays the same -/

/-- What no move breaks holds after all moves of a schedule. -/
theorem run_induct {P : Pipeline → Prop} (hturn : ∀ p turn, P p → P (p.turn files reader turn))
    (schedule : List Turn) {p : Pipeline} (hp : P p) : P (p.run files reader schedule) := by
  induction schedule generalizing p with
  | nil => exact hp
  | cons turn schedule ih => exact ih (hturn p turn hp)

/-- A scan under way comes to what its stages come to one after the other. -/
structure Follows (files : List Path) (reader : TagReader) (s : Store) (p : Pipeline) : Prop where
  outcome : p.outcome files reader = (populate none (reader.tracks files)).run s
  /-- The ingestion does not finish before the extraction. -/
  closed : p.ingesting = .finished → p.extracting = .finished
  yield : (∀ e, p.ingesting ≠ .failed e) → p.yield files reader = reader.report files
  discovered : p.extracting ≠ .discovering → p.discovered = files.length

theorem extractionTurn_of_finished (h : p.extracting = .finished) :
    p.extractionTurn files reader = p := by
  simp only [extractionTurn, h]

theorem ingestionTurn_of_isOver (h : p.ingesting.isOver = true) : p.ingestionTurn = p := by
  rcases Ingesting.isOver_iff.1 h with hi | ⟨e, hi⟩ <;> simp only [ingestionTurn, hi]

namespace Follows

variable {s : Store}

theorem start (files : List Path) (reader : TagReader) (s : Store) :
    Follows files reader s (start s) where
  outcome := completed_of_none rfl rfl _
  closed h := by cases h
  yield _ := by simp [Pipeline.yield, Pipeline.start, Extracting.toReport, ExtractionReport.plus]
  discovered h := absurd rfl h

/-- What the consumer does is not seen in what the scan comes to. -/
theorem consumer (h : Follows files reader s p) (accepted received : List Track)
    (watching : Bool) : Follows files reader s { p with accepted, received, watching } :=
  ⟨h.outcome, h.closed, h.yield, h.discovered⟩

theorem extractionTurn (h : Follows files reader s p) :
    Follows files reader s (p.extractionTurn files reader) where
  outcome := (outcome_extractionTurn files reader p).trans h.outcome
  closed hfinished := by
    obtain ⟨_, _, _, _, hp⟩ := p.extractionTurn_frame files reader
    have hsame : p.ingesting = .finished := by rw [← hfinished, hp]
    rw [extractionTurn_of_finished (h.closed hsame)]
    exact h.closed hsame
  yield hfailed := by
    obtain ⟨_, _, _, _, hp⟩ := p.extractionTurn_frame files reader
    have hfailed' : ∀ e, p.ingesting ≠ .failed e := by rwa [hp] at hfailed
    have hclosed : p.ingesting.isOver = true → p.extracting = .finished := by
      intro hover
      rcases Ingesting.isOver_iff.1 hover with hi | ⟨e, hi⟩
      · exact h.closed hi
      · exact absurd hi (hfailed' e)
    rw [yield_extractionTurn hclosed, h.yield hfailed']
  discovered := by
    have hdiscovered := h.discovered
    rw [Pipeline.extractionTurn]
    split
    · intro _
      rfl
    · next hx =>
      intro _
      exact hdiscovered (by simp [hx])
    · next hx =>
      split <;> intro _ <;> exact hdiscovered (by simp [hx])
    · next hx =>
      split <;> intro _ <;> exact hdiscovered (by simp [hx])
    · exact hdiscovered

theorem ingestionTurn (h : Follows files reader s p) : Follows files reader s p.ingestionTurn where
  outcome := (outcome_ingestionTurn files reader p).trans h.outcome
  closed := by
    have hclosed := h.closed
    rw [Pipeline.ingestionTurn]
    split
    · split
      · intro hi
        cases hi
      · next hx =>
        intro _
        exact hx
      · exact hclosed
    · split <;> intro hi <;> cases hi
    · split
      · intro hi
        cases hi
      · split <;> intro hi <;> cases hi
    · exact hclosed
    · exact hclosed
  yield hfailed := by
    have hfailed' : ∀ e, p.ingesting ≠ .failed e := by
      intro e he
      refine hfailed e ?_
      rw [ingestionTurn_of_isOver (Ingesting.isOver_iff.2 (.inr ⟨e, he⟩)), he]
    obtain ⟨_, _, _, _, _, _, _, hp⟩ := p.ingestionTurn_frame
    rw [hp]
    exact h.yield hfailed'
  discovered := by
    obtain ⟨_, _, _, _, _, _, _, hp⟩ := p.ingestionTurn_frame
    rw [hp]
    exact h.discovered

/-- Whoever makes a move, the scan comes to the same. -/
theorem turn (h : Follows files reader s p) (turn : Turn) :
    Follows files reader s (p.turn files reader turn) := by
  cases turn with
  | extraction => exact h.extractionTurn
  | ingestion => exact h.ingestionTurn
  | take =>
    rw [Pipeline.turn, take]
    split
    · exact h.consumer _ _ _
    · exact h
  | leave => exact h.consumer [] p.received false

/-- **Whatever the schedule, the scan comes to the same.** -/
theorem run (files : List Path) (reader : TagReader) (s : Store) (schedule : List Turn) :
    Follows files reader s ((Pipeline.start s).run files reader schedule) :=
  run_induct (fun _ turn h => h.turn turn) schedule (start files reader s)

/-- While the scan is under way the new tracks are the first of all that there will be. -/
theorem added_prefix (h : Follows files reader s p) {added : List Track}
    {result : Except StoreError IngestionReport} {s' : Store}
    (hrun : (populate none (reader.tracks files)).run s = ((added, result), s')) :
    p.added <+: added :=
  added_prefix_of_outcome (h.outcome.trans hrun)

/-- **When the scan is over**, the store and the new tracks are those of an ingestion of all tracks
at once, and it reports what this comes to. -/
theorem result? (h : Follows files reader s p) {outcome : Except LibraryError ScanSummary}
    (houtcome : p.result? = some outcome) :
    ∃ result, (populate none (reader.tracks files)).run s = ((p.added, result), p.store) ∧
      outcome = reader.conclude files result := by
  have hrun := h.outcome
  rw [Pipeline.result?] at houtcome
  split at houtcome
  · next hx hi =>
    rw [Pipeline.outcome, hi] at hrun
    have hdiscovered := h.discovered (by simp [hx])
    have hyield : p.extraction.plus {} = reader.report files := by
      have hyield := h.yield (by simp [hi])
      rwa [Pipeline.yield, hx] at hyield
    have hextraction : p.extraction = reader.report files := by
      rw [← hyield]
      simp [ExtractionReport.plus]
    refine ⟨_, hrun.symm, ?_⟩
    rw [← Option.some.inj houtcome, hdiscovered, hextraction]
    rfl
  · next e hx hi =>
    rw [Pipeline.outcome, hi] at hrun
    exact ⟨_, hrun.symm, (Option.some.inj houtcome).symm⟩
  · cases houtcome

/-- **A scan under way ends like one** whose stages wait for each other. -/
theorem scanFiles (h : Follows files reader s p) {outcome : Except LibraryError ScanSummary}
    (houtcome : p.result? = some outcome) :
    (scanFiles reader none files).run s = ((p.added, outcome), p.store) := by
  obtain ⟨result, hrun, rfl⟩ := h.result? houtcome
  rw [run_scanFiles, hrun]

end Follows

end Pipeline
end Fonoteca
