import Fonoteca.Proofs.Scan.Interleaving

/-!
# Whoever watches an ingestion

The ingestion passes new tracks on to a consumer and finds out only by this whether there is still
one.  Nothing else depends on what it finds out.

* `populate_receive` : with whatever patience somebody watches a list of tracks being put in, the
  store and the report are those of a watcher who stays, and the tracks that the watcher got are the
  first of those.
* `Pipeline.unwatched` is a scan under way without what belongs to its consumer.  The stages do not
  see more of it (`Pipeline.unwatched_turn`), and the moves of the consumer do not change it.
* **`Pipeline.unwatched_run`** : so two schedules that agree on the turns of the stages agree on all
  that the stages do, whenever the consumers take tracks and whenever they leave.
* `Pipeline.ofTracks` is an ingestion by itself, of tracks that were all sent before.
* **`ingestion_unwatched`** : no consumer can influence an ingestion.

Nothing is asked of the store: it may be closed or open, and may refuse the first track or a later
one.
-/

set_option autoImplicit false

namespace Fonoteca

/-! ## Patience -/

/-- What somebody gets of some tracks who stays for a number of them. -/
theorem Patience.hand_take (k : Nat) (new : Option Track) (later : List Track) :
    Patience.hand (some k) new (later.take (k - new.toList.length)) =
      (Patience.hand none new later).take k := by
  cases new with
  | none => rfl
  | some new => cases k <;> rfl

theorem Patience.after_some (k : Nat) (new : Option Track) :
    Patience.after (some k) new = some (k - new.toList.length) := by
  cases new <;> rfl

theorem Patience.after_none (new : Option Track) : Patience.after none new = none := by
  cases new <;> rfl

theorem run_populate_nil (patience : Patience) (s : Store) :
    (populate patience []).run s = (([], .ok {}), s) := rfl

/-- **However long the watcher stays**, the store and the report are the same, and the watcher gets
the first of the tracks that are new. -/
theorem populate_receive (k : Nat) (tracks : List Track) (s : Store) :
    (populate (some k) tracks).run s =
      let ((added, result), s') := (populate none tracks).run s
      ((added.take k, result), s') := by
  induction tracks generalizing k s with
  | nil => simp only [run_populate_nil, List.take_nil]
  | cons track tracks ih =>
    rw [run_populate_cons, run_populate_cons]
    rcases (ingest track).run.run s with ⟨e | new, s₁⟩
    · simp only [List.take_nil]
    · dsimp only
      rw [Patience.after_some, Patience.after_none, ih]
      rcases (populate none tracks).run s₁ with ⟨⟨later, result⟩, s₂⟩
      exact congrArg (fun added => ((added, result.map (·.count new)), s₂))
        (Patience.hand_take k new later)

namespace Pipeline

variable {files : List Path} {reader : TagReader} {p q : Pipeline}

/-! ## What the stages see -/

/-- A scan under way with nobody to watch it, nothing on the way to them and nothing known about
them. -/
def unwatched (p : Pipeline) : Pipeline :=
  { p with consumerGone := false, accepted := [], watching := false, received := [] }

/-- Whether a turn is one of a stage, and not one of the consumer. -/
def Turn.isStage : Turn → Bool
  | .extraction => true
  | .ingestion => true
  | .take => false
  | .leave => false

theorem unwatched_take (p : Pipeline) : p.take.unwatched = p.unwatched := by
  rw [take]
  split <;> rfl

/-- The extraction does not look at the consumer. -/
theorem unwatched_extractionTurn (files : List Path) (reader : TagReader) (p : Pipeline) :
    (p.unwatched.extractionTurn files reader).unwatched =
      (p.extractionTurn files reader).unwatched := by
  obtain ⟨store, discovered, extracting, extraction, ore, ingesting, _⟩ := p
  cases extracting with
  | discovering => rfl
  | reading paths =>
    cases paths with
    | nil => rfl
    | cons path paths =>
      simp only [extractionTurn, unwatched]
      cases reader path <;> rfl
  | sending track paths =>
    cases ingesting <;> rfl
  | finished => rfl

/-- **The ingestion looks at the consumer** only for where it leaves a new track.  Whether it knows
already that nobody takes it, finds it out or passes the track on, it goes on with the next one. -/
theorem unwatched_ingestionTurn (p : Pipeline) :
    p.unwatched.ingestionTurn.unwatched = p.ingestionTurn.unwatched := by
  obtain ⟨store, discovered, extracting, extraction, ore, ingesting, ingestion, added,
    consumerGone, accepted, watching, received⟩ := p
  cases ingesting with
  | waiting =>
    cases ore with
    | nil => cases extracting <;> rfl
    | cons track ore => rfl
  | storing track =>
    simp only [ingestionTurn, unwatched]
    rcases (ingest track).run.run store with ⟨_ | _ | _, _⟩ <;> rfl
  | forwarding new => cases consumerGone <;> cases watching <;> rfl
  | finished => rfl
  | failed e => rfl

/-- A turn of a stage comes to the same for the stages, whoever watches. -/
theorem unwatched_turn (h : p.unwatched = q.unwatched) (turn : Turn) :
    (p.turn files reader turn).unwatched = (q.turn files reader turn).unwatched := by
  cases turn with
  | extraction =>
    rw [turn, turn, ← unwatched_extractionTurn, h, unwatched_extractionTurn]
  | ingestion => rw [turn, turn, ← unwatched_ingestionTurn, h, unwatched_ingestionTurn]
  | take => rw [turn, turn, unwatched_take, unwatched_take, h]
  | leave => exact h

/-- A turn of the consumer comes to nothing for the stages. -/
theorem unwatched_turn_of_consumer {turn : Turn} (h : turn.isStage = false) :
    (p.turn files reader turn).unwatched = p.unwatched := by
  cases turn with
  | extraction => cases h
  | ingestion => cases h
  | take => exact unwatched_take p
  | leave => rfl

/-- The turns of the consumer can be left out of a schedule. -/
theorem unwatched_run_stages (schedule : List Turn) (h : p.unwatched = q.unwatched) :
    (p.run files reader schedule).unwatched =
      (q.run files reader (schedule.filter Turn.isStage)).unwatched := by
  induction schedule generalizing p q with
  | nil => exact h
  | cons turn schedule ih =>
    by_cases hturn : turn.isStage = true
    · rw [List.filter_cons_of_pos hturn]
      exact ih (unwatched_turn h turn)
    · rw [List.filter_cons_of_neg hturn]
      exact ih ((unwatched_turn_of_consumer (by simpa using hturn)).trans h)

/-- **Two schedules with the same turns of the stages** come to the same for the stages. -/
theorem unwatched_run {schedule schedule' : List Turn}
    (hturns : schedule.filter Turn.isStage = schedule'.filter Turn.isStage) :
    (p.run files reader schedule).unwatched = (p.run files reader schedule').unwatched := by
  rw [unwatched_run_stages schedule rfl, hturns, ← unwatched_run_stages schedule' rfl]

/-! ## A consumer who is gone -/

/-- Who left does not come back, and gets nothing. -/
theorem gone_turn (files : List Path) (reader : TagReader) (h : Delivers p)
    (hgone : p.watching = false) (turn : Turn) :
    (p.turn files reader turn).watching = false ∧
      (p.turn files reader turn).received = p.received := by
  cases turn with
  | extraction =>
    obtain ⟨_, _, _, _, hp⟩ := p.extractionTurn_frame files reader
    rw [turn, hp]
    exact ⟨hgone, rfl⟩
  | ingestion =>
    obtain ⟨_, _, _, _, _, _, _, hp⟩ := p.ingestionTurn_frame
    rw [turn, hp]
    exact ⟨hgone, rfl⟩
  | take =>
    rw [turn, take, h.gone hgone]
    exact ⟨hgone, rfl⟩
  | leave => exact ⟨rfl, rfl⟩

/-- **Nobody gets anything after leaving**, whatever happens then. -/
theorem received_of_gone (h : Delivers p) (hgone : p.watching = false) (schedule : List Turn) :
    (p.run files reader schedule).received = p.received := by
  have hstep (q : Pipeline) (turn : Turn)
      (hq : Delivers q ∧ q.watching = false ∧ q.received = p.received) :
      Delivers (q.turn files reader turn) ∧ (q.turn files reader turn).watching = false ∧
        (q.turn files reader turn).received = p.received := by
    obtain ⟨hdelivers, hleft, hsame⟩ := hq
    obtain ⟨hleft', hsame'⟩ := gone_turn files reader hdelivers hleft turn
    exact ⟨hdelivers.turn turn, hleft', hsame'.trans hsame⟩
  exact (run_induct hstep schedule ⟨h, hgone, rfl⟩).2.2

/-! ## An ingestion by itself -/

/-- An ingestion that has not begun, of tracks that were all sent. -/
def ofTracks (tracks : List Track) (s : Store) : Pipeline where
  store := s
  extracting := .finished
  ore := tracks

/-- What the ingestion has come to, once it is over. -/
def ingested? (p : Pipeline) : Option (Except StoreError IngestionReport) :=
  match p.ingesting with
  | .finished => some (.ok p.ingestion)
  | .failed e => some (.error e)
  | _ => none

/-- Whoever makes a move, the ingestion comes to the same in the end. -/
theorem outcome_turn (turn : Turn) :
    (p.turn files reader turn).outcome files reader = p.outcome files reader := by
  cases turn with
  | extraction => exact outcome_extractionTurn files reader p
  | ingestion => exact outcome_ingestionTurn files reader p
  | take =>
    rw [Pipeline.turn, take]
    split <;> rfl
  | leave => rfl

theorem outcome_run (schedule : List Turn) :
    (p.run files reader schedule).outcome files reader = p.outcome files reader :=
  run_induct (P := fun q => q.outcome files reader = p.outcome files reader)
    (fun _ turn h => (outcome_turn turn).trans h) schedule rfl

variable {tracks : List Track} {s : Store}

theorem outcome_ofTracks (files : List Path) (reader : TagReader) :
    (ofTracks tracks s).outcome files reader = (populate none tracks).run s := by
  rw [← completed_of_none (p := ofTracks tracks s) rfl rfl ((populate none tracks).run s)]
  simp [outcome, ofTracks, upcoming, Ingesting.inHand, Extracting.toSend]

theorem Delivers.ofTracks (tracks : List Track) (s : Store) : Delivers (ofTracks tracks s) :=
  (Delivers.start s).of_same rfl rfl rfl rfl rfl rfl

theorem isOver_of_ingested? (h : p.ingested?.isSome) : p.ingesting.isOver = true := by
  rw [ingested?] at h
  cases hi : p.ingesting <;> simp [hi, Ingesting.isOver] at h ⊢

theorem ingested?_isSome (h : p.ingesting.isOver = true) : p.ingested?.isSome := by
  rcases Ingesting.isOver_iff.1 h with hi | ⟨e, hi⟩ <;> simp [ingested?, hi]

/-- An ingestion that is over has come to what it was to come to. -/
theorem outcome_of_ingested? {result : Except StoreError IngestionReport}
    (h : p.ingested? = some result) :
    p.outcome files reader = ((p.added, result), p.store) := by
  rcases Ingesting.isOver_iff.1 (isOver_of_ingested? (by rw [h]; rfl)) with hi | ⟨e, hi⟩
  · rw [ingested?, hi] at h
    rw [outcome, hi, ← Option.some.inj h]
  · rw [ingested?, hi] at h
    rw [outcome, hi, ← Option.some.inj h]

/-- **An ingestion ends** if it gets turns again and again, whatever the consumer does. -/
theorem ofTracks_ends {turns : Nat → Turn} (hingestion : ∀ n, ∃ m ≥ n, turns m = .ingestion)
    (files : List Path) (reader : TagReader) (tracks : List Track) (s : Store) :
    ∃ n, ((ofTracks tracks s).after files reader turns n).ingested?.isSome := by
  obtain ⟨n, -, hdone⟩ : ∃ n, ((ofTracks tracks s).after files reader turns n).extracting =
      .finished ∧ ((ofTracks tracks s).after files reader turns n).ingestionWork = 0 :=
    exists_after_done (P := fun p => p.extracting = .finished) (w := ingestionWork) hingestion
      (fun _ turn hx => ingestionWork_turn_le hx turn)
      (fun _ hx hleft => ingestionWork_ingestionTurn hx hleft) 0 rfl
  exact ⟨n, ingested?_isSome (isOver_of_ingestionWork hdone)⟩

end Pipeline

/-! ## No influence -/

/-- **A consumer cannot influence an ingestion**, whatever store it is, closed or open, and whatever
the tracks.  Somebody who stays for some tracks, or for none, gets the first of those that somebody
gets who stays to the end, and the store and the result are the same for both.

This is so turn by turn, too.  The ingestion ends, whatever the consumer does.  Two schedules that
differ only in when the consumer takes a track or leaves agree on everything else.  At any time the
consumer has got the first of the tracks that are new, all of them by the end if they stay and take
what waits for them, and nothing more after leaving. -/
theorem ingestion_unwatched (tracks : List Track) (s : Store) :
    ∃ added result s', (populate none tracks).run s = ((added, result), s') ∧
      (∀ k, (populate (some k) tracks).run s = ((added.take k, result), s')) ∧
      ∀ (files : List Path) (reader : TagReader),
        (∀ turns : Nat → Pipeline.Turn, (∀ n, ∃ m ≥ n, turns m = .ingestion) →
          ∃ n, ((Pipeline.ofTracks tracks s).run files reader
            ((List.range n).map turns)).ingested?.isSome) ∧
        ∀ (schedule : List Pipeline.Turn) (p : Pipeline),
          (Pipeline.ofTracks tracks s).run files reader schedule = p →
          (∀ schedule', schedule'.filter Pipeline.Turn.isStage =
              schedule.filter Pipeline.Turn.isStage →
            ((Pipeline.ofTracks tracks s).run files reader schedule').unwatched = p.unwatched) ∧
          (p.ingested?.isSome → p.ingested? = some result ∧ p.added = added ∧ p.store = s') ∧
          p.received = added.take p.received.length ∧
          (p.watching = true → p.ingested?.isSome → p.received ++ p.accepted = added) ∧
          (p.watching = false → ∀ later, (p.run files reader later).received = p.received) := by
  rcases hrun : (populate none tracks).run s with ⟨⟨added, result⟩, s'⟩
  refine ⟨added, result, s', rfl, fun k => ?_, fun files reader =>
    ⟨fun turns hturns => Pipeline.ofTracks_ends hturns files reader tracks s, ?_⟩⟩
  · rw [populate_receive, hrun]
  rintro schedule p rfl
  have hdelivers : Pipeline.Delivers ((Pipeline.ofTracks tracks s).run files reader schedule) :=
    Pipeline.run_induct (fun _ turn h => h.turn turn) schedule (.ofTracks tracks s)
  have houtcome := (Pipeline.outcome_run (p := .ofTracks tracks s) schedule).trans
    ((Pipeline.outcome_ofTracks files reader).trans hrun)
  have hstages (schedule' : List Pipeline.Turn) (hturns : schedule'.filter Pipeline.Turn.isStage =
      schedule.filter Pipeline.Turn.isStage) :
      ((Pipeline.ofTracks tracks s).run files reader schedule').unwatched =
        ((Pipeline.ofTracks tracks s).run files reader schedule).unwatched :=
    Pipeline.unwatched_run hturns
  generalize (Pipeline.ofTracks tracks s).run files reader schedule = p at *
  have hprefix := Pipeline.added_prefix_of_outcome houtcome
  have hended (hover : p.ingested?.isSome) :
      p.ingested? = some result ∧ p.added = added ∧ p.store = s' := by
    obtain ⟨result', hresult⟩ := Option.isSome_iff_exists.1 hover
    rw [Pipeline.outcome_of_ingested? hresult] at houtcome
    cases houtcome
    exact ⟨hresult, rfl, rfl⟩
  refine ⟨hstages, hended, ?_, fun hwatching hover => ?_,
    fun hleft => Pipeline.received_of_gone hdelivers hleft⟩
  · exact List.prefix_iff_eq_take.1 (hdelivers.received.trans hprefix)
  · rw [← (hended hover).2.1]
    exact hdelivers.of_isOver hwatching (Pipeline.isOver_of_ingested? hover)

end Fonoteca
