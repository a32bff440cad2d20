import Fonoteca.Proofs.Scan.Delivery

/-!
# However the stages of a scan take turns

* `Extracting.work` and `Pipeline.ingestionWork` bound how many moves a stage still has to make.  A
  move of the stage brings the bound down, and no other move changes it.
* **`Pipeline.ends`** : so a scan ends under every schedule in which the extraction and the
  ingestion get turns again and again.  The consumer is not needed for that.
* **`Store.Reachable.scan_interleaved`** : a scan ends, and under every schedule it does to the
  store, reports and delivers what its stages come to one after the other.
-/

set_option autoImplicit false

namespace Fonoteca

open Tables (Sound)

/-! ## Moves that are left -/

/-- How many moves the extraction can still make. -/
def Extracting.work (files : List Path) : Extracting → Nat
  | .discovering => 2 * files.length + 2
  | .reading paths => 2 * paths.length + 1
  | .sending _ paths => 2 * paths.length + 2
  | .finished => 0

/-- How many moves the ingestion can still make for the track that it has. -/
def Ingesting.work : Ingesting → Nat
  | .waiting => 1
  | .storing _ => 3
  | .forwarding _ => 2
  | .finished => 0
  | .failed _ => 0

namespace Pipeline

variable {files : List Path} {reader : TagReader} {p : Pipeline}

/-- How many moves the ingestion can still make, once nothing more is sent to it. -/
def ingestionWork (p : Pipeline) : Nat :=
  if p.ingesting.isOver then 0 else 3 * p.ore.length + p.ingesting.work

theorem extracting_of_work {extracting : Extracting} (h : extracting.work files = 0) :
    extracting = .finished := by
  cases extracting with
  | finished => rfl
  | _ => simp [Extracting.work] at h

theorem isOver_of_ingestionWork (h : p.ingestionWork = 0) : p.ingesting.isOver = true := by
  rw [ingestionWork] at h
  split at h
  · assumption
  · cases hi : p.ingesting <;> simp [hi, Ingesting.work, Ingesting.isOver] at h ⊢

/-- A move of the extraction is one move less. -/
theorem work_extractionTurn (h : p.extracting.work files ≠ 0) :
    (p.extractionTurn files reader).extracting.work files < p.extracting.work files := by
  rw [extractionTurn]
  split
  · next hx => simp only [hx, Extracting.work]; omega
  · next hx => simp only [hx, Extracting.work]; omega
  · next path paths hx =>
    split
    · simp only [hx, Extracting.work, List.length_cons]; omega
    · simp only [hx, Extracting.work, List.length_cons]; omega
  · next track paths hx =>
    split
    · simp only [hx, Extracting.work]; omega
    · simp only [hx, Extracting.work]; omega
  · next hx => simp [hx, Extracting.work] at h

/-- No other move is one of the extraction. -/
theorem extracting_turn {turn : Turn} (h : turn ≠ .extraction) :
    (p.turn files reader turn).extracting = p.extracting := by
  cases turn with
  | extraction => exact absurd rfl h
  | ingestion =>
    obtain ⟨_, _, _, _, _, _, _, hp⟩ := p.ingestionTurn_frame
    rw [turn, hp]
  | take =>
    rw [turn, take]
    split <;> rfl
  | leave => rfl

theorem work_turn_le (files : List Path) (reader : TagReader) (p : Pipeline) (turn : Turn) :
    (p.turn files reader turn).extracting.work files ≤ p.extracting.work files := by
  by_cases hturn : turn = .extraction
  · by_cases hdone : p.extracting.work files = 0
    · rw [hturn, Pipeline.turn, extractionTurn_of_finished (extracting_of_work hdone)]
    · rw [hturn]
      exact Nat.le_of_lt (work_extractionTurn hdone)
  · rw [extracting_turn hturn]

/-- A move of the ingestion is one move less, once nothing more is sent to it. -/
theorem ingestionWork_ingestionTurn (hx : p.extracting = .finished) (h : p.ingestionWork ≠ 0) :
    p.ingestionTurn.ingestionWork < p.ingestionWork := by
  rw [ingestionTurn]
  split
  · next hi =>
    split
    · next track ore hore =>
      simp [ingestionWork, hi, hore, Ingesting.isOver, Ingesting.work]
      omega
    · next hore _ => simp [ingestionWork, hi, hore, Ingesting.isOver, Ingesting.work]
    · next hopen => exact absurd hx hopen
  · next track hi =>
    split <;> simp [ingestionWork, hi, Ingesting.isOver, Ingesting.work]
  · next new hi =>
    split
    · simp [ingestionWork, hi, Ingesting.isOver, Ingesting.work]
    · split <;> simp [ingestionWork, hi, Ingesting.isOver, Ingesting.work]
  · next hi => simp [ingestionWork, hi, Ingesting.isOver] at h
  · next e hi => simp [ingestionWork, hi, Ingesting.isOver] at h

/-- No other move is one of the ingestion, once nothing more is sent to it. -/
theorem ingestionWork_turn (hx : p.extracting = .finished) {turn : Turn} (h : turn ≠ .ingestion) :
    (p.turn files reader turn).ingestionWork = p.ingestionWork := by
  cases turn with
  | extraction => rw [turn, extractionTurn_of_finished hx]
  | ingestion => exact absurd rfl h
  | take =>
    rw [turn, take]
    split <;> rfl
  | leave => rfl

theorem ingestionWork_turn_le (hx : p.extracting = .finished) (turn : Turn) :
    (p.turn files reader turn).extracting = .finished ∧
      (p.turn files reader turn).ingestionWork ≤ p.ingestionWork := by
  have hdone := Nat.le_zero.1
    ((work_turn_le files reader p turn).trans (by rw [hx, Extracting.work]))
  refine ⟨extracting_of_work hdone, ?_⟩
  by_cases hturn : turn = .ingestion
  · by_cases hdone : p.ingestionWork = 0
    · rw [hturn, Pipeline.turn, ingestionTurn_of_isOver (isOver_of_ingestionWork hdone)]
    · rw [hturn]
      exact Nat.le_of_lt (ingestionWork_ingestionTurn hx hdone)
  · rw [ingestionWork_turn hx hturn]

/-! ## Schedules without end -/

/-- A scan after some moves of a schedule without end. -/
def after (files : List Path) (reader : TagReader) (turns : Nat → Turn) (p : Pipeline) (n : Nat) :
    Pipeline :=
  p.run files reader ((List.range n).map turns)

theorem after_succ (turns : Nat → Turn) (n : Nat) :
    p.after files reader turns (n + 1) =
      (p.after files reader turns n).turn files reader (turns n) := by
  simp [after, run, List.range_succ]

section

variable {w : Pipeline → Nat} {P : Pipeline → Prop} {turns : Nat → Turn}

/-- Work to which no turn adds does not become more. -/
theorem after_keeps
    (hkeep : ∀ p turn, P p → P (p.turn files reader turn) ∧ w (p.turn files reader turn) ≤ w p)
    {n m : Nat} (hnm : n ≤ m) (hn : P (p.after files reader turns n)) :
    P (p.after files reader turns m) ∧
      w (p.after files reader turns m) ≤ w (p.after files reader turns n) := by
  induction m, hnm using Nat.le_induction with
  | base => exact ⟨hn, Nat.le_refl _⟩
  | succ m _ ih =>
    rw [after_succ]
    obtain ⟨hp, hwork⟩ := hkeep _ (turns m) ih.1
    exact ⟨hp, hwork.trans ih.2⟩

/-- **Whoever gets turns again and again gets done**, if each of these turns brings down the work
that is left and no other turn adds to it. -/
theorem exists_after_done {who : Turn} (hwho : ∀ n, ∃ m ≥ n, turns m = who)
    (hkeep : ∀ p turn, P p → P (p.turn files reader turn) ∧ w (p.turn files reader turn) ≤ w p)
    (hless : ∀ p, P p → w p ≠ 0 → w (p.turn files reader who) < w p) (n : Nat)
    (hn : P (p.after files reader turns n)) :
    ∃ m, P (p.after files reader turns m) ∧ w (p.after files reader turns m) = 0 := by
  induction hwork : w (p.after files reader turns n) using Nat.strong_induction_on
    generalizing n with
  | _ k ih =>
    obtain ⟨m, hnm, hturn⟩ := hwho n
    obtain ⟨hm, hle⟩ := after_keeps hkeep hnm hn
    by_cases hdone : w (p.after files reader turns m) = 0
    · exact ⟨m, hm, hdone⟩
    · have hnext := (hkeep _ (turns m) hm).1
      have hfewer := hless _ hm hdone
      rw [← hturn] at hfewer
      rw [← after_succ] at hnext hfewer
      exact ih _ (hwork ▸ hfewer.trans_le hle) (m + 1) hnext rfl

end

theorem result?_isSome (hx : p.extracting = .finished) (hi : p.ingesting.isOver = true) :
    p.result?.isSome := by
  rcases Ingesting.isOver_iff.1 hi with hi | ⟨e, hi⟩ <;> simp [result?, hx, hi]

/-- **A scan ends** if the extraction and the ingestion get turns again and again. -/
theorem ends {turns : Nat → Turn} (hextraction : ∀ n, ∃ m ≥ n, turns m = .extraction)
    (hingestion : ∀ n, ∃ m ≥ n, turns m = .ingestion) (files : List Path) (reader : TagReader)
    (p : Pipeline) : ∃ n, (p.after files reader turns n).result?.isSome := by
  -- the ingestion need not get done before the extraction has finished
  obtain ⟨n, -, hread⟩ : ∃ n, True ∧ (p.after files reader turns n).extracting.work files = 0 :=
    exists_after_done (P := fun _ => True) (w := fun p => p.extracting.work files) hextraction
      (fun p turn _ => ⟨trivial, work_turn_le files reader p turn⟩)
      (fun _ _ hleft => work_extractionTurn hleft) 0 trivial
  obtain ⟨m, hx, hstored⟩ : ∃ m, (p.after files reader turns m).extracting = .finished ∧
      (p.after files reader turns m).ingestionWork = 0 :=
    exists_after_done (P := fun p => p.extracting = .finished) (w := ingestionWork) hingestion
      (fun _ turn hx => ingestionWork_turn_le hx turn)
      (fun _ hx hleft => ingestionWork_ingestionTurn hx hleft) n (extracting_of_work hread)
  exact ⟨m, result?_isSome hx (isOver_of_ingestionWork hstored)⟩

/-- Once the ingestion is over, a consumer who is there has got all new tracks but those that
wait. -/
theorem Delivers.of_isOver (h : Delivers p) (hwatching : p.watching = true)
    (hover : p.ingesting.isOver = true) : p.received ++ p.accepted = p.added := by
  have hwatched := h.watched hwatching
  have hforward : p.ingesting.toForward = [] := by
    rcases Ingesting.isOver_iff.1 hover with hi | ⟨e, hi⟩ <;> rw [hi] <;> rfl
  rwa [hforward, List.append_nil] at hwatched

theorem isOver_of_result? (h : p.result?.isSome) : p.ingesting.isOver = true := by
  rw [result?] at h
  split at h
  · next hi => rw [hi]; rfl
  · next hi => rw [hi]; rfl
  · cases h

/-- The same once the scan is over. -/
theorem Delivers.complete (h : Delivers p) (hwatching : p.watching = true)
    (hresult : p.result?.isSome) : p.received ++ p.accepted = p.added :=
  h.of_isOver hwatching (isOver_of_result? hresult)

end Pipeline

/-! ## Every schedule -/

/-- The new tracks of an ingestion are tracks of the list that was put in, in the order of that
list, also if the store refuses them. -/
theorem Store.Reachable.erased_populate {s s' : Store} (hs : s.Reachable) (hopen : s.isOpen = true)
    {tracks added : List Track} (hfresh : ∀ t ∈ tracks, t.IsFresh)
    {result : Except StoreError IngestionReport}
    (hrun : (populate none tracks).run s = ((added, result), s')) :
    (added.map Track.erased).Sublist (tracks.map Track.erased) := by
  cases result with
  | ok report => exact (ingested_of_populate hs.sound hfresh hrun).erased
  | error e =>
    have hread : s.readOnly = true := by
      by_contra hwrite
      obtain ⟨_, _, hok⟩ := run_populate hs.sound hopen (by simpa using hwrite) none tracks
      rw [hrun] at hok
      cases hok
    cases tracks with
    | nil => cases hrun
    | cons track tracks =>
      rw [run_populate_readOnly hs.sound hopen hread] at hrun
      cases hrun
      exact List.nil_sublist _

/-- **However the stages of a scan take turns**, the scan ends, and it comes to the same.  The store
and the report are those of finding the files, making a track of each file that can be read, and
then putting all tracks into the store, which is what `scan` does.  Every file was read or failed,
and every track was new or passed over.  A consumer who stays gets the new tracks in the order in
which their files were found, one who goes away got the first of them, and each of them can be read
from the store by the time it is sent. -/
theorem Store.Reachable.scan_interleaved {α : Type} {s s' : Store} (hs : s.Reachable)
    (hopen : s.isOpen = true) {disk : Disk α} {extension : String} {root : Path}
    {files : List Path} (hfiles : disk.discover root extension = files) {reader : TagReader}
    {added : List Track} {result : Except StoreError IngestionReport}
    (hrun : (populate none (reader.tracks files)).run s = ((added, result), s')) :
    (∀ turns : Nat → Pipeline.Turn, (∀ n, ∃ m ≥ n, turns m = .extraction) →
      (∀ n, ∃ m ≥ n, turns m = .ingestion) →
      ∃ n, ((Pipeline.start s).run (disk.discover root extension) reader
        ((List.range n).map turns)).result?.isSome) ∧
    (added.map Track.erased).Sublist ((reader.tracks files).map Track.erased) ∧
    ∀ (schedule : List Pipeline.Turn) (p : Pipeline),
      (Pipeline.start s).run (disk.discover root extension) reader schedule = p →
      (∀ outcome, p.result? = some outcome → p.store = s' ∧
        (scan disk reader extension none root).run s = ((added, outcome), s') ∧
        outcome = match result with
        | .error e => .error (.inContext ingesting (.store e))
        | .ok report => .ok {
            discovered := files.length
            extracted := (reader.tracks files).length
            failed := (reader.failures files).length
            inserted := report.inserted
            skipped := report.skipped }) ∧
      (∀ summary, p.result? = some (.ok summary) →
        summary.discovered = summary.extracted + summary.failed ∧
        summary.extracted = summary.inserted + summary.skipped ∧
        summary.inserted = added.length) ∧
      (p.watching = true → p.received ++ p.accepted <+: added ∧
        (p.result?.isSome → p.received ++ p.accepted = added)) ∧
      p.received <+: added ∧
      ∀ a ∈ p.received ++ p.accepted,
        (Store.track? a.id).run p.store = (.ok (some a), p.store) := by
  subst hfiles
  set files := disk.discover root extension
  have hfresh := reader.isFresh_tracks files
  refine ⟨fun turns hextraction hingestion =>
    Pipeline.ends hextraction hingestion files reader (.start s),
    hs.erased_populate hopen hfresh hrun, ?_⟩
  rintro schedule p rfl
  have hfollows := Pipeline.Follows.run files reader s schedule
  have hdelivers := Pipeline.Delivers.run files reader s schedule
  have hstored := Pipeline.Stored.run files reader hs.sound hopen schedule
  generalize (Pipeline.start s).run files reader schedule = p at hfollows hdelivers hstored
  have hprefix := hfollows.added_prefix hrun
  have hended : ∀ outcome, p.result? = some outcome →
      p.added = added ∧ p.store = s' ∧ outcome = reader.conclude files result := by
    intro outcome houtcome
    obtain ⟨result', hrun', rfl⟩ := hfollows.result? houtcome
    rw [hrun] at hrun'
    cases hrun'
    exact ⟨rfl, rfl, rfl⟩
  refine ⟨fun outcome houtcome => ?_, fun summary hsummary => ?_,
    fun hwatching => ⟨?_, fun hover => ?_⟩, hdelivers.received.trans hprefix, fun a ha =>
      hstored.run_track? hs.sound hopen (hdelivers.mem_added ha)⟩
  · have hscan := hfollows.scanFiles houtcome
    obtain ⟨hadded, hstore, hconclude⟩ := hended outcome houtcome
    rw [hadded, hstore] at hscan
    refine ⟨hstore, hscan, ?_⟩
    rw [hconclude]
    cases result <;> rfl
  · obtain ⟨-, -, hconclude⟩ := hended _ hsummary
    cases result with
    | error e => cases hconclude
    | ok report =>
      obtain rfl := Except.ok.inj hconclude
      have hingested := ingested_of_populate hs.sound hfresh hrun
      exact ⟨(reader.length_tracks_add files).symm, hingested.total.symm, hingested.inserted⟩
  · refine List.IsPrefix.trans ⟨p.ingesting.toForward, ?_⟩ hprefix
    exact hdelivers.watched hwatching
  · obtain ⟨outcome, houtcome⟩ := Option.isSome_iff_exists.1 hover
    rw [hdelivers.complete hwatching hover, (hended outcome houtcome).1]

/-! ## A scan of three files -/

/-- A folder with the files `a`, `b` and `c`. -/
def Entries.three : Entries Unit :=
  .cons [0x61] (.file ()) (.cons [0x62] (.file ()) (.cons [0x63] (.file ()) .nil))

/-- A disk with that folder under the name `m`. -/
def threeFiles : Disk Unit where
  root := .cons [0x6D] (.folder .three) .nil
  home := []

theorem discover_threeFiles : threeFiles.discover ⟨[0x6D]⟩ "" =
    [⟨[0x6D, 0x2F, 0x61]⟩, ⟨[0x6D, 0x2F, 0x62]⟩, ⟨[0x6D, 0x2F, 0x63]⟩] := by
  have hsteps : Path.steps ⟨[0x6D]⟩ = [[0x6D]] := by decide +kernel
  have hnode : threeFiles.node false ⟨[0x6D]⟩ = .ok (.folder .three) := by
    simp [Disk.node, Disk.locate, Disk.walk, hsteps, threeFiles, Path.isAbsolute, Path.slash,
      Path.dot, Entries.lookup, Entries.find?, Disk.pathLengthLimit, Disk.maxNameLength]
    rfl
  have hfiles : (Node.folder Entries.three).files = [[[0x61]], [[0x62]], [[0x63]]] := by
    rw [Node.files, inNameOrder, List.mergeSort_of_pairwise (by decide +kernel)]
    rfl
  rw [Disk.discover, Disk.waysToFiles, hnode]
  dsimp only
  rw [hfiles]
  decide +kernel

/-- A reader that cannot read the file `b`, and finds one title in all others. -/
def TagReader.oneTitle : TagReader := fun path =>
  if path.bytes = [0x6D, 0x2F, 0x62] then .error (.metadata path "unreadable")
  else .ok { title := some "Rain" }

/-- A schedule in which the consumer takes the first track while there are two files left to read,
and then goes away. -/
def Pipeline.earlyLeave : List Pipeline.Turn :=
  [.extraction, .ingestion, .extraction, .extraction, .ingestion, .ingestion, .ingestion, .take,
    .leave, .extraction, .extraction, .ingestion, .extraction, .ingestion, .extraction, .ingestion,
    .ingestion]

/-- The consumer of a scan goes away early, with the one track that is new.  Of the other two files
one cannot be read, and one is of the same song. -/
theorem Store.scan_interleaved_threeFiles :
    ∃ p : Pipeline, (Pipeline.start {}).run (threeFiles.discover ⟨[0x6D]⟩ "") .oneTitle
        Pipeline.earlyLeave = p ∧
      p.result? = some (.ok
        { discovered := 3, extracted := 2, failed := 1, inserted := 1, skipped := 1 }) ∧
      p.watching = false ∧ p.received = [{ title := "Rain", path := "m/a", id := 1 }] ∧
      (Store.track? 1).run p.store =
        (.ok (some { title := "Rain", path := "m/a", id := 1 }), p.store) := by
  rcases hrun : (populate none (TagReader.oneTitle.tracks
    [⟨[0x6D, 0x2F, 0x61]⟩, ⟨[0x6D, 0x2F, 0x62]⟩, ⟨[0x6D, 0x2F, 0x63]⟩])).run {}
    with ⟨⟨added, result⟩, s'⟩
  obtain ⟨-, -, hall⟩ := (Reachable.new false false).scan_interleaved rfl discover_threeFiles hrun
  obtain ⟨-, -, -, -, hstored⟩ := hall Pipeline.earlyLeave _ rfl
  rw [discover_threeFiles] at hstored ⊢
  exact ⟨_, rfl, by decide +kernel, by decide +kernel, by decide +kernel,
    hstored { title := "Rain", path := "m/a", id := 1 } (by decide +kernel)⟩

end Fonoteca
