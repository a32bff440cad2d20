import Fonoteca.Proofs.Scan.Completion
import Fonoteca.Proofs.Scan.Extraction

/-!
# Closing a store and opening it again

All that a store answers comes from its tables.  So a store that is not in memory does not show that
it was closed and opened again in between, and while it is closed it answers what can be answered
without tables and nothing else.

* `Request.answerClosed` is the answer of a store that is closed, the same for all of them.
* **`Store.run_closed`** : a closed store gives this answer and stays as it is, unless it is asked
  to open again or a row is added past it.
* `ReopensUnseen` says that the answers of a store, or of whatever answers such requests, do not
  show that it was closed and opened again.
* **`Store.reopensUnseen`** : those of an open store that is not in memory do not.
-/

set_option autoImplicit false

namespace Fonoteca

variable {α : Type} {s : Store}

namespace Request

/-- Whether a request opens the library again. -/
def isReopen : Request → Bool
  | .reopen => true
  | _ => false

/-- Whether a request adds a row past the store. -/
def isRow : Request → Bool
  | .addPerformerRow _ _ => true
  | .addAlbumRow _ _ _ => true
  | .addTrackRow _ _ _ _ _ _ _ => true
  | _ => false

theorem isReopen_iff {request : Request} : request.isReopen = true ↔ request = .reopen := by
  cases request <;> simp [isReopen]

/-- What a closed store answers.  Numbers that no performer or album can have are refused as they
are in an open store, an ingestion of no tracks succeeds, and so does a scan that can read no file;
for everything else there is no connection. -/
def answerClosed : Request → Answer
  | .insertTrack _ p a =>
    if p ≤ 0 then .refused (.missingReference .performer p)
    else if a ≤ 0 then .refused (.missingReference .album a)
    else .refused (.connectionLost .closed)
  | .populate ts _ =>
    if ts = [] then .populated [] {} else .unpopulated [] (.connectionLost .closed)
  | .scan reader paths _ =>
    if reader.tracks paths = [] then
      .scanned [] { discovered := paths.length, failed := paths.length }
    else .unscanned [] (.inContext ingesting (.store (.connectionLost .closed)))
  | .search _ _ => .unsearchable (.store (.connectionLost .closed))
  | .close => .done
  | .reopen => .done
  | _ => .refused (.connectionLost .closed)

/-- The answers to those requests of a history that do not open the library again. -/
def others (requests : List Request) (answers : List Answer) : List Answer :=
  ((requests.zip answers).filter fun asked => !asked.1.isReopen).map Prod.snd

theorem others_cons_reopen (requests : List Request) (answer : Answer) (answers : List Answer) :
    others (.reopen :: requests) (answer :: answers) = others requests answers :=
  rfl

theorem others_cons_of_ne {request : Request} (h : request.isReopen = false)
    (requests : List Request) (answer : Answer) (answers : List Answer) :
    others (request :: requests) (answer :: answers) = answer :: others requests answers := by
  simp [others, h]

end Request

/-! ## Histories -/

section

variable {σ : Type}

/-- From a state on, no answer to a history shows that something was closed and opened again. -/
structure ReopensUnseen (askAll : List Request → StateM σ (List Answer)) (s : σ) : Prop where
  /-- Opening again in between changes no answer to anything else. -/
  others : ∀ requests : List Request, .close ∉ requests →
    Request.others requests ((askAll requests).run s).1 =
      ((askAll (requests.filter fun request => !request.isReopen)).run s).1
  /-- After closing, asking what cannot be answered then, and opening again, everything is answered
  as before. -/
  closed : ∀ between : List Request,
    (∀ request ∈ between, request.isReopen = false ∧ request.isRow = false) →
      ∃ s', (askAll (.close :: (between ++ [.reopen]))).run s =
          (.done :: (between.map Request.answerClosed ++ [.done]), s') ∧
        ∀ later : List Request, ((askAll later).run s').1 = ((askAll later).run s).1

theorem Request.runAll_append (before after : List Request) (s : Store) :
    (runAll (before ++ after)).run s =
      (((runAll before).run s).1 ++ ((runAll after).run ((runAll before).run s).2).1,
        ((runAll after).run ((runAll before).run s).2).2) := by
  rw [runAll, List.mapM_append]
  rfl

end

/-! ## A closed store -/

/-- A request that fails is refused. -/
theorem StoreM.answer_of_error {request : StoreM α} {e : StoreError}
    (h : request.run s = (.error e, s)) (say : α → Answer) :
    (request.answer say).run s = (.refused e, s) := by
  rw [StoreM.answer, StateT.run_bind, show request.run.run s = (.error e, s) from h]
  rfl

namespace Store

theorem run_insertTrack_closed (hclosed : s.isOpen = false) (track : Track)
    (performer album : Int) :
    (Request.insertTrack track performer album).run.run s =
      ((Request.insertTrack track performer album).answerClosed, s) := by
  rw [Request.run, Request.answerClosed, insertTrack]
  split
  · rfl
  split
  · rfl
  · exact StoreM.answer_of_error (run_change_closed hclosed _) _

theorem run_populate_answer_closed (hclosed : s.isOpen = false) (tracks : List Track)
    (patience : Patience) :
    (Request.populate tracks patience).run.run s =
      ((Request.populate tracks patience).answerClosed, s) := by
  cases tracks with
  | nil => rfl
  | cons track tracks =>
    rw [Request.run, answerPopulate, StateT.run_bind,
      run_populate_closed hclosed patience track tracks]
    rfl

theorem run_scan_closed (hclosed : s.isOpen = false) (reader : TagReader) (paths : List Path)
    (patience : Patience) :
    (Request.scan reader paths patience).run.run s =
      ((Request.scan reader paths patience).answerClosed, s) := by
  rw [Request.run, answerScan, scanFiles, extract_none, Request.answerClosed, TagReader.report]
  dsimp only
  cases htracks : reader.tracks paths with
  | nil =>
    have hfailed := reader.length_tracks_add paths
    rw [htracks, List.length_nil, Nat.zero_add] at hfailed
    rw [hfailed, if_pos rfl]
    rfl
  | cons track tracks =>
    rw [if_neg (List.cons_ne_nil _ _), StateT.run_bind, StateT.run_bind,
      run_populate_closed hclosed patience track tracks]
    rfl

/-- **What a closed store answers**: it looks nothing up and changes nothing. -/
theorem run_closed (hclosed : s.isOpen = false) {request : Request}
    (hreopen : request.isReopen = false) (hrow : request.isRow = false) :
    request.run.run s = (request.answerClosed, s) := by
  cases request with
  | insertTrack track performer album => exact run_insertTrack_closed hclosed track performer album
  | populate tracks patience => exact run_populate_answer_closed hclosed tracks patience
  | scan reader paths patience => exact run_scan_closed hclosed reader paths patience
  | search plan text =>
    rw [Request.run, answerSearch, StateT.run_bind,
      show (search plan text).run.run s = _ from run_ask_closed hclosed _]
    rfl
  | updateTrack track =>
    have hask : (track? track.id).run s = (.error (.connectionLost .closed), s) :=
      run_ask_closed hclosed _
    exact StoreM.answer_of_error (StoreM.run_bind_error hask _) _
  | close =>
    exact (run_close s).trans (by rw [← hclosed]; rfl)
  | reopen => cases hreopen
  | addPerformerRow kind name => cases hrow
  | addAlbumRow directory name year => cases hrow
  | addTrackRow performer album path title number year genre => cases hrow
  | resolvePerformer | resolveAlbum | setKind | addPerson | updatePerson | addGroup | updateGroup
  | join => exact StoreM.answer_of_error (run_change_closed hclosed _) _
  | _ => exact StoreM.answer_of_error (run_ask_closed hclosed _) _

@[inherit_doc run_closed]
theorem runAll_closed (hclosed : s.isOpen = false) {requests : List Request}
    (hrequests : ∀ request ∈ requests, request.isReopen = false ∧ request.isRow = false) :
    (Request.runAll requests).run s = (requests.map Request.answerClosed, s) := by
  induction requests with
  | nil => rfl
  | cons request requests ih =>
    obtain ⟨hreopen, hrow⟩ := hrequests request (.head _)
    rw [Request.runAll_cons, run_closed hclosed hreopen hrow,
      ih fun request hrequest => hrequests request (.tail _ hrequest), List.map_cons]

/-! ## A store that is opened again -/

/-- An open store that is not in memory is the same when it is opened again, and so it is when it
was closed. -/
theorem run_reopen_eq (hopen : s.isOpen = true) (hdisk : s.inMemory = false) (isOpen : Bool) :
    Request.reopen.run.run { s with isOpen } = (.done, s) := by
  obtain ⟨tables, _, readOnly, _⟩ := s
  subst hopen hdisk
  rfl

/-- What is asked of an open store that is not in memory is answered as if it had not been opened
again in between. -/
theorem run_others (hopen : s.isOpen = true) (hdisk : s.inMemory = false)
    {requests : List Request} (hclose : .close ∉ requests) :
    Request.others requests ((Request.runAll requests).run s).1 =
      ((Request.runAll (requests.filter fun request => !request.isReopen)).run s).1 := by
  induction requests generalizing s with
  | nil => rfl
  | cons request requests ih =>
    obtain ⟨hhead, htail⟩ : .close ≠ request ∧ .close ∉ requests := by simpa using hclose
    rw [Request.runAll_cons]
    by_cases hreopen : request = .reopen
    · subst hreopen
      rw [show Request.reopen.run.run s = _ from run_reopen_eq hopen hdisk s.isOpen,
        Request.others_cons_reopen, List.filter_cons_of_neg (by simp [Request.isReopen])]
      exact ih hopen hdisk htail
    · have hother : request.isReopen = false := by simpa [← Request.isReopen_iff] using hreopen
      obtain ⟨u, -, hs⟩ := frame_run hhead.symm hreopen s
      rw [Request.others_cons_of_ne hother, List.filter_cons_of_pos (by simp [hother]),
        Request.runAll_cons, ih (by rw [hs]; exact hopen) (by rw [hs]; exact hdisk) htail]

/-- **Closing and opening a store again does not show**, if it is not in memory. -/
theorem reopensUnseen (hopen : s.isOpen = true) (hdisk : s.inMemory = false) :
    ReopensUnseen Request.runAll s where
  others _ hclose := run_others hopen hdisk hclose
  closed between hbetween := by
    refine ⟨s, ?_, fun _ => rfl⟩
    rw [Request.runAll_cons, show Request.close.run.run s = _ from run_close s,
      Request.runAll_append, runAll_closed rfl hbetween, Request.runAll_cons,
      run_reopen_eq hopen hdisk false]
    rfl

end Store
end Fonoteca
