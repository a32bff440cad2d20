import Fonoteca.Proofs.Store.Halves
import Fonoteca.Proofs.Store.Stepwise

/-!
# The two halves of a store are independent

What is asked about persons, groups and memberships does not show in what is answered about
performers, albums and tracks, nor the other way round.

* `Blind` says of what is asked that its answer and what it leaves do not depend on what is erased
  from the tables, `Unseen` that it changes nothing but what is erased.
* `Request.aboutPeople` and `Request.aboutTracks` tell the halves apart.  Who asks for a performer
  asks about both, as the kind belongs to the one half and the name to the other.
* **`answersTo_of_thinned`** : if some requests are left out that are unseen, those that are blind
  to them are answered as before.
* **`Store.halves_independent`** : so it is with the two halves of a store.
-/

set_option autoImplicit false

namespace Fonoteca

open Tables (SameBut Uniform withoutPeople withoutTracks)

variable {α β : Type} {erase : Tables → Tables}

/-- A store with something erased from its tables. -/
def Store.erased (s : Store) (erase : Tables → Tables) : Store :=
  { s with tables := erase s.tables }

/-- In two stores that differ in nothing but what is erased, this has the same answer and leaves
stores that differ in nothing else. -/
def Blind (erase : Tables → Tables) (m : StateM Store α) : Prop :=
  ∀ s s' : Store, s.erased erase = s'.erased erase →
    ((m s).1, (m s).2.erased erase) = ((m s').1, (m s').2.erased erase)

/-- This changes nothing but what is erased. -/
def Unseen (erase : Tables → Tables) (m : StateM Store α) : Prop :=
  ∀ s : Store, (m s).2.erased erase = s.erased erase

/-! ## What is blind -/

/-- What is told and left comes from the store without what is erased. -/
theorem Blind.of_eq {m : StateM Store α} (told : Store → α × Store)
    (h : ∀ s, ((m s).1, (m s).2.erased erase) = told (s.erased erase)) : Blind erase m :=
  fun s s' hs => (h s).trans ((congrArg told hs).trans (h s').symm)

theorem composes_blind : Composes fun _ => Blind erase where
  pure a _ _ hs := congrArg (Prod.mk a) hs
  bind {α β m f} hm hf s s' hs := by
    obtain ⟨hanswer, hleft⟩ := Prod.mk.inj (hm s s' hs)
    have hnext := hf (m s).1 (m s).2 (m s').2 hleft
    change ((f (m s).1 (m s).2).1, (f (m s).1 (m s).2).2.erased erase) =
      ((f (m s').1 (m s').2).1, (f (m s').1 (m s').2).2.erased erase)
    rwa [← hanswer]

theorem blind_ask {read : Tables → Except StoreError α} (h : ∀ t, read (erase t) = read t) :
    Blind erase (Store.ask read).run := by
  refine .of_eq (Store.ask read).run fun s => ?_
  cases hopen : s.isOpen with
  | true =>
    rw [Store.run_ask hopen, Store.run_ask (s := s.erased erase) hopen, ← h]
    rfl
  | false => rw [Store.run_ask_closed hopen, Store.run_ask_closed (s := s.erased erase) hopen]

/-- What is written without what is erased. -/
theorem erased_write {update : Tables → Except StoreError (α × Tables)} (h : Uniform erase update)
    (s : Store) :
    (((Store.write update).run s).1, ((Store.write update).run s).2.erased erase) =
      (Store.write fun t => (update t).map (Prod.map id erase)).run (s.erased erase) := by
  cases hread : s.readOnly with
  | true =>
    rw [Store.run_write_readOnly hread, Store.run_write_readOnly (s := s.erased erase) hread]
  | false =>
    rw [Store.run_write hread, Store.run_write (s := s.erased erase) hread]
    have htables : (s.erased erase).tables = erase s.tables := rfl
    rw [htables, h s.tables]
    rcases update s.tables with e | ⟨a, t⟩ <;> rfl

theorem blind_change {update : Tables → Except StoreError (α × Tables)}
    (h : Uniform erase update) : Blind erase (Store.change update).run := by
  refine .of_eq (Store.change fun t => (update t).map (Prod.map id erase)).run fun s => ?_
  cases hopen : s.isOpen with
  | true =>
    rw [Store.run_change hopen, Store.run_change (s := s.erased erase) hopen]
    exact erased_write h s
  | false =>
    rw [Store.run_change_closed hopen, Store.run_change_closed (s := s.erased erase) hopen]

/-- A failure of the database is classified, whatever is erased. -/
theorem Tables.Uniform.classify {update : Tables → Except Fault (α × Tables)}
    (h : Uniform erase update) : Uniform erase fun t => Store.classify (update t) := by
  intro t
  have hmap : ∀ outcome : Except Fault (α × Tables),
      (Store.classify outcome).map (Prod.map id erase) =
        Store.classify (outcome.map (Prod.map id erase)) := by
    rintro (e | ⟨a, t⟩) <;> rfl
  exact (hmap _).trans ((congrArg Store.classify (h t)).trans (hmap _).symm)

theorem blind_addRow {table : String} {add : Tables → Except Fault (Int × Tables)}
    (h : Uniform erase add) : Blind erase (Store.addRow table add).run := by
  refine .of_eq (fun s => if s.inMemory then (.error (.query (.noTable table)), s)
    else (Store.write fun t => (Store.classify (add t)).map (Prod.map id erase)).run s) fun s => ?_
  cases hmem : s.inMemory with
  | true =>
    rw [Store.run_addRow_inMemory hmem]
    exact (if_pos hmem).symm
  | false =>
    rw [Store.run_addRow hmem, erased_write h.classify]
    exact (if_neg (by simp [Store.erased, hmem])).symm

theorem blind_close : Blind erase Request.close.run :=
  .of_eq Request.close.run fun _ => rfl

/-- Tables that are lost with the memory that they were in are lost in both halves. -/
theorem blind_reopen (hempty : erase {} = {}) : Blind erase Request.reopen.run := by
  refine .of_eq Request.reopen.run fun s => ?_
  have htables : erase (if s.inMemory then {} else s.tables) =
      if s.inMemory then {} else erase s.tables := by rw [apply_ite erase, hempty]
  exact congrArg (fun tables => (Answer.done, { s with isOpen := true, tables })) htables

/-! ## What is unseen -/

/-- What goes through steps that change nothing but what is erased. -/
theorem Stepwise.unseen {m : StateM Store α} (h : Stepwise (SameBut erase) m) :
    Unseen erase m := by
  intro s
  obtain ⟨u, hu, -, hs⟩ := h s
  have hsame : erase u = erase s.tables := Tables.SameBut.of_reflTransGen hu
  rw [hs, Store.erased, Store.erased, hsame]

namespace Request

/-! ## The two halves -/

/-- Whether a request is about persons, groups and memberships, or about the kinds of
performers. -/
def aboutPeople : Request → Bool
  | .performer _ => true
  | .setKind _ _ => true
  | .addPerson _ => true
  | .person _ => true
  | .updatePerson _ => true
  | .personNamed _ => true
  | .personNames => true
  | .addGroup _ => true
  | .group _ => true
  | .updateGroup _ => true
  | .groupNamed _ => true
  | .groupNames => true
  | .join _ _ => true
  | .members _ => true
  | .groupsOf _ => true
  | _ => false

/-- Whether a request is about performers, albums and tracks. -/
def aboutTracks : Request → Bool
  | .performer _ => true
  | .setKind _ _ => false
  | .close => false
  | .reopen => false
  | request => !request.aboutPeople

theorem blind_resolvePerformer (name : String) :
    Blind withoutPeople (Store.resolvePerformer name).run :=
  blind_change (Tables.uniform_resolvePerformer name).classify

theorem blind_resolveAlbum (directory name : String) (year : Int32) :
    Blind withoutPeople (Store.resolveAlbum directory name year).run :=
  blind_change (Tables.uniform_resolveAlbum directory name year).classify

theorem blind_insertTrack (track : Track) (performer album : Int) :
    Blind withoutPeople (Store.insertTrack track performer album).run :=
  composes_blind.insertTrack
    (blind_change (Tables.uniform_insertTrack track performer album).classify)

theorem blind_performerNamed? (name : String) :
    Blind withoutPeople (Store.performerNamed? name).run :=
  blind_ask fun t => by rw [t.performerNamed?_withoutPeople]

theorem blind_albumNamed? (directory name : String) :
    Blind withoutPeople (Store.albumNamed? directory name).run :=
  blind_ask fun _ => rfl

theorem blind_track? (id : Int) : Blind withoutPeople (Store.track? id).run :=
  blind_ask fun t => by rw [t.readTrack_withoutPeople]

theorem blind_ingest (track : Track) : Blind withoutPeople (ingest track).run :=
  composes_blind.ingest (blind_performerNamed? _) (blind_albumNamed? _ _)
    (blind_resolvePerformer _) (blind_resolveAlbum _ _ _) (blind_insertTrack track)

theorem blind_updateTrack (track : Track) : Blind withoutPeople (Store.updateTrack track).run :=
  composes_blind.updateTrack (blind_track? _) (blind_resolvePerformer _) (blind_resolveAlbum _ _ _)
    fun performer album =>
      blind_change (Tables.uniform_rewriteTrack track performer album).classify

/-- What is not about people is blind to them. -/
theorem blind_of_not_aboutPeople {request : Request} (h : request.aboutPeople = false) :
    Blind withoutPeople request.run := by
  have hask : ∀ {α : Type} (read : Tables → Except StoreError α) (say : α → Answer),
      (∀ t, read t.withoutPeople = read t) → Blind withoutPeople ((Store.ask read).answer say) :=
    fun read say hread => composes_blind.answer (blind_ask hread) say
  cases request with
  | resolvePerformer name => exact composes_blind.answer (blind_resolvePerformer name) _
  | resolveAlbum directory name year =>
    exact composes_blind.answer (blind_resolveAlbum directory name year) _
  | insertTrack track performer album =>
    exact composes_blind.answer (blind_insertTrack track performer album) _
  | populate tracks patience =>
    exact composes_blind.answerPopulate blind_ingest patience tracks
  | scan reader paths patience =>
    exact composes_blind.answerScan blind_ingest reader patience paths
  | search plan text =>
    exact composes_blind.answerSearch (blind_ask fun t => by rw [t.search_withoutPeople])
  | matching plan query => exact hask _ _ fun t => by rw [t.matching_withoutPeople]
  | containing text => exact hask _ _ fun t => by rw [t.containing_withoutPeople]
  | track id => exact composes_blind.answer (blind_track? id) _
  | tracks => exact hask _ _ fun t => by rw [t.readTracks_withoutPeople]
  | references id => exact hask _ _ fun _ => rfl
  | album id => exact hask _ _ fun _ => rfl
  | updateTrack track => exact composes_blind.answer (blind_updateTrack track) _
  | performerNamed name => exact composes_blind.answer (blind_performerNamed? name) _
  | albumNamed directory name => exact composes_blind.answer (blind_albumNamed? directory name) _
  | addPerformerRow kind name =>
    exact composes_blind.answer (blind_addRow (Tables.uniform_addPerformer kind name)) _
  | addAlbumRow directory name year =>
    exact composes_blind.answer (blind_addRow (Tables.uniform_addAlbum directory name year)) _
  | addTrackRow performer album path title number year genre =>
    exact composes_blind.answer
      (blind_addRow (Tables.uniform_addTrack performer album path title number year genre)) _
  | close => exact blind_close
  | reopen => exact blind_reopen rfl
  | _ => cases h

/-- What is about people is not seen without them. -/
theorem unseen_of_aboutPeople {request : Request} (h : request.aboutPeople = true) :
    Unseen withoutPeople request.run := by
  suffices hsteps : Stepwise (SameBut withoutPeople) request.run from hsteps.unseen
  have hask : ∀ {α : Type} (read : Tables → Except StoreError α) (say : α → Answer),
      Stepwise (SameBut withoutPeople) ((Store.ask read).answer say) :=
    fun read say => (stepwise_ask read).answer say
  have hchange : ∀ {α : Type} (update : Tables → α × Tables) (say : α → Answer),
      (∀ t, SameBut withoutPeople t (update t).2) →
        Stepwise (SameBut withoutPeople) ((Store.change fun t => .ok (update t)).answer say) :=
    fun update say hsame => (stepwise_change_ok fun t => .single (hsame t)).answer say
  cases request with
  | setKind id kind => exact hchange _ _ fun t => t.sameBut_setKind id kind
  | addPerson person => exact hchange _ _ fun _ => rfl
  | updatePerson person => exact hchange _ _ fun _ => rfl
  | addGroup group => exact hchange _ _ fun _ => rfl
  | updateGroup group => exact hchange _ _ fun _ => rfl
  | join person group =>
    exact (Stepwise.join fun t u hu => .single (Tables.sameBut_addMembership hu)).answer _
  | performer | person | personNamed | personNames | group | groupNamed | groupNames | members
  | groupsOf => exact hask _ _
  | _ => cases h

/-- What is not about tracks is blind to them. -/
theorem blind_of_not_aboutTracks {request : Request} (h : request.aboutTracks = false) :
    Blind withoutTracks request.run := by
  have hask : ∀ {α : Type} (read : Tables → Except StoreError α) (say : α → Answer),
      (∀ t, read t.withoutTracks = read t) → Blind withoutTracks ((Store.ask read).answer say) :=
    fun read say hread => composes_blind.answer (blind_ask hread) say
  have hchange : ∀ {α : Type} (update : Tables → Except StoreError (α × Tables)) (say : α → Answer),
      Uniform withoutTracks update → Blind withoutTracks ((Store.change update).answer say) :=
    fun update say huniform => composes_blind.answer (blind_change huniform) say
  cases request with
  | setKind id kind => exact hchange _ _ fun _ => rfl
  | addPerson person => exact hchange _ _ fun _ => rfl
  | updatePerson person => exact hchange _ _ fun _ => rfl
  | addGroup group => exact hchange _ _ fun _ => rfl
  | updateGroup group => exact hchange _ _ fun _ => rfl
  | join person group => exact hchange _ _ (Tables.uniform_addMembership person group).classify
  | person | personNamed | personNames | group | groupNamed | groupNames | members | groupsOf =>
    exact hask _ _ fun _ => rfl
  | close => exact blind_close
  | reopen => exact blind_reopen rfl
  | _ => cases h

/-- What is about tracks is not seen without them. -/
theorem unseen_of_aboutTracks {request : Request} (h : request.aboutTracks = true) :
    Unseen withoutTracks request.run := by
  suffices hsteps : Stepwise (SameBut withoutTracks) request.run from hsteps.unseen
  have hperformer : ∀ name, Stepwise (SameBut withoutTracks) (Store.resolvePerformer name).run :=
    fun name => .resolvePerformer fun t => .single (t.sameBut_performerFor name)
  have halbum : ∀ directory name year,
      Stepwise (SameBut withoutTracks) (Store.resolveAlbum directory name year).run :=
    fun directory name year =>
      .resolveAlbum fun t => .single (t.sameBut_albumFor directory name year)
  have hinsert : ∀ track performer album,
      Stepwise (SameBut withoutTracks) (Store.insertTrack track performer album).run :=
    fun _ _ _ => .insertTrack fun _ _ _ hu => .single (Tables.sameBut_insertTrack hu)
  have hingest : ∀ track, Stepwise (SameBut withoutTracks) (ingest track).run := fun track =>
    .ingest (hperformer _) (halbum _ _ _) (hinsert track)
  have hrow : ∀ (table : String) (add : Tables → Except Fault (Int × Tables)),
      (∀ t i u, add t = .ok (i, u) → SameBut withoutTracks t u) →
        Stepwise (SameBut withoutTracks) ((Store.addRow table add).answer .id) :=
    fun table add hadd => (stepwise_addRow hadd).answer _
  cases request with
  | resolvePerformer name => exact (hperformer name).answer _
  | resolveAlbum directory name year => exact (halbum directory name year).answer _
  | insertTrack track performer album => exact (hinsert track performer album).answer _
  | populate tracks patience =>
    exact composes_stepwise.answerPopulate hingest patience tracks
  | scan reader paths patience =>
    exact composes_stepwise.answerScan hingest reader patience paths
  | search plan text => exact composes_stepwise.answerSearch (stepwise_ask _)
  | updateTrack track =>
    have hupdate : Stepwise (SameBut withoutTracks) (Store.updateTrack track).run :=
      .updateTrack (hperformer _) (halbum _ _ _) fun _ _ _ _ _ hu =>
        .single (Tables.sameBut_rewriteTrack hu)
    exact hupdate.answer _
  | addPerformerRow kind name =>
    exact hrow _ _ fun _ _ _ hu => Tables.sameBut_addPerformer hu
  | addAlbumRow directory name year =>
    exact hrow _ _ fun _ _ _ hu => Tables.sameBut_addAlbum hu
  | addTrackRow performer album path title number year genre =>
    exact hrow _ _ fun _ _ _ hu => Tables.sameBut_addTrack hu
  | performer | matching | containing | track | tracks | references | album | performerNamed
  | albumNamed => exact (stepwise_ask _).answer _
  | _ => cases h

/-! ## Leaving requests out -/

/-- A history from which some requests that a predicate holds of may have been left out. -/
inductive Thinned (p : Request → Bool) : List Request → List Request → Prop
  | nil : Thinned p [] []
  /-- A request stays. -/
  | keep {kept requests : List Request} (request : Request) (h : Thinned p kept requests) :
      Thinned p (request :: kept) (request :: requests)
  /-- A request is left out. -/
  | leaveOut {kept requests : List Request} {request : Request} (hrequest : p request = true)
      (h : Thinned p kept requests) : Thinned p kept (request :: requests)

/-- The answers to those requests of a history that a predicate holds of. -/
def answersTo (p : Request → Bool) (requests : List Request) (answers : List Answer) :
    List Answer :=
  ((requests.zip answers).filter fun asked => p asked.1).map Prod.snd

theorem answersTo_cons (p : Request → Bool) (request : Request) (requests : List Request)
    (answer : Answer) (answers : List Answer) :
    answersTo p (request :: requests) (answer :: answers) =
      if p request then answer :: answersTo p requests answers
      else answersTo p requests answers := by
  rw [answersTo, answersTo, List.zip_cons_cons, List.filter_cons]
  split <;> rfl

end Request

open Request (Thinned answersTo)

/-- **Leaving out what is unseen** changes no answer to what is blind to it, and what is not erased
of the tables is in the end the same. -/
theorem answersTo_of_thinned {p : Request → Bool}
    (hblind : ∀ request, p request = false → Blind erase request.run)
    (hunseen : ∀ request, p request = true → Unseen erase request.run)
    {kept requests : List Request} (h : Thinned p kept requests) {s s' : Store}
    (hs : s.erased erase = s'.erased erase) :
    answersTo (fun request => !p request) kept ((Request.runAll kept).run s).1 =
        answersTo (fun request => !p request) requests ((Request.runAll requests).run s').1 ∧
      ((Request.runAll kept).run s).2.erased erase =
        ((Request.runAll requests).run s').2.erased erase := by
  induction h generalizing s s' with
  | nil => exact ⟨rfl, hs⟩
  | keep request h ih =>
    rw [Request.runAll_cons, Request.runAll_cons, Request.answersTo_cons, Request.answersTo_cons]
    cases hp : p request with
    | true =>
      have hleft : (request.run s).2.erased erase = (request.run s').2.erased erase := by
        rw [hunseen request hp, hunseen request hp, hs]
      exact ih hleft
    | false =>
      obtain ⟨hanswer, hleft⟩ := Prod.mk.inj (hblind request hp s s' hs)
      obtain ⟨hanswers, hend⟩ := ih hleft
      refine ⟨?_, hend⟩
      exact congrArg₂ List.cons hanswer hanswers
  | leaveOut hrequest h ih =>
    rw [Request.runAll_cons, Request.answersTo_cons, if_neg (by simp [hrequest])]
    exact ih (hs.trans (hunseen _ hrequest s').symm)

namespace Store

/-- **The two halves of a store are independent.**  Whatever requests about people are left out of a
history, each other request is answered as before, and whatever requests about tracks are left out,
each other request is. -/
theorem halves_independent (s : Store) {kept requests : List Request} :
    (Thinned Request.aboutPeople kept requests →
      answersTo (fun request => !request.aboutPeople) kept ((Request.runAll kept).run s).1 =
        answersTo (fun request => !request.aboutPeople) requests
          ((Request.runAll requests).run s).1) ∧
    (Thinned Request.aboutTracks kept requests →
      answersTo (fun request => !request.aboutTracks) kept ((Request.runAll kept).run s).1 =
        answersTo (fun request => !request.aboutTracks) requests
          ((Request.runAll requests).run s).1) := by
  constructor
  · intro h
    exact (answersTo_of_thinned (fun _ => Request.blind_of_not_aboutPeople)
      (fun _ => Request.unseen_of_aboutPeople) h rfl).1
  · intro h
    exact (answersTo_of_thinned (fun _ => Request.blind_of_not_aboutTracks)
      (fun _ => Request.unseen_of_aboutTracks) h rfl).1

/-- Requests about either half by turns; nobody is there who could join a group. -/
def byTurns : List Request :=
  [.resolvePerformer "Ann", .addGroup { name := "A" }, .setKind 1 .person, .resolvePerformer "Bo",
    .join 1 1, .groupNames, .performerNamed "Ann"]

/-- Each half of such a history is answered as it is by itself. -/
theorem halves_independent_byTurns :
    answersTo (fun request => !request.aboutPeople) byTurns ((Request.runAll byTurns).run {}).1 =
        [.id 1, .id 2, .id? (some 1)] ∧
      answersTo (fun request => !request.aboutTracks) byTurns
          ((Request.runAll byTurns).run {}).1 =
        [.id 1, .done, .refused (.constraint "FOREIGN KEY constraint failed"),
          .named [("A", 1)]] := by
  have hnames : Thinned Request.aboutPeople
      [.resolvePerformer "Ann", .resolvePerformer "Bo", .performerNamed "Ann"] byTurns :=
    .keep _ (.leaveOut rfl (.leaveOut rfl (.keep _ (.leaveOut rfl (.leaveOut rfl
      (.keep _ .nil))))))
  have hpeople : Thinned Request.aboutTracks
      [.addGroup { name := "A" }, .setKind 1 .person, .join 1 1, .groupNames] byTurns :=
    .leaveOut rfl (.keep _ (.keep _ (.leaveOut rfl (.keep _ (.keep _ (.leaveOut rfl .nil))))))
  constructor
  · rw [← (halves_independent {}).1 hnames]
    decide +kernel
  · rw [← (halves_independent {}).2 hpeople]
    decide +kernel

end Store
end Fonoteca
