import Fonoteca.Proofs.Store.Parts
import Fonoteca.Proofs.Store.Running
import Fonoteca.Proofs.Store.Step

/-!
# What requests do to a store

A request is `Stepwise` for a kind of steps if it takes the tables of any store through such steps,
whether it succeeds or not, through none if they may only be read, and changes nothing else of the
store.  Requests that only ask are, those that change the tables are where the change is, and a
request made of such parts is again.

* `Request.isAddition` are the requests that write no track anew, add no row from outside and keep
  the store as open as it is.
* **`stepwise_addition`** : these take the tables through additions.
* **`stepwise_run`** : whatever else is asked takes them through steps, unless it is about the store
  being open (`run_close`, `run_reopen`).  Then the tables stay (`tables_run`), but for those that
  are lost with the memory they were in.
-/

set_option autoImplicit false

namespace Fonoteca

open Tables (Step Addition Additions)

variable {α β : Type} {r : Tables → Tables → Prop}

/-! ## Requests made of parts -/

/-- Whatever the store, its tables go through steps of a kind, unless they may only be read, and
nothing else of it changes. -/
def Stepwise (r : Tables → Tables → Prop) (m : StateM Store α) : Prop :=
  ∀ s, ∃ u, Relation.ReflTransGen r s.tables u ∧ (s.readOnly = true → u = s.tables) ∧
    (m s).2 = { s with tables := u }

theorem Stepwise.mono {p : Tables → Tables → Prop} {m : StateM Store α} (h : Stepwise r m)
    (himp : ∀ t u, r t u → p t u) : Stepwise p m := by
  intro s
  obtain ⟨u, hu, hread, hs⟩ := h s
  exact ⟨u, Relation.ReflTransGen.mono (r := r) (p := p) himp _ _ hu, hread, hs⟩

theorem stepwise_pure (a : α) : Stepwise r (pure a) :=
  fun s => ⟨s.tables, .refl, fun _ => rfl, rfl⟩

theorem Stepwise.bind {m : StateM Store α} {f : α → StateM Store β} (hm : Stepwise r m)
    (hf : ∀ a, Stepwise r (f a)) : Stepwise r (m >>= f) := by
  intro s
  obtain ⟨u, hu, hread, hs⟩ := hm s
  obtain ⟨v, hv, hread', hs'⟩ := hf (m s).1 (m s).2
  rw [hs] at hv hread' hs'
  exact ⟨v, hu.trans hv, fun h => (hread' h).trans (hread h),
    (congrArg (fun s₁ => (f (m s).1 s₁).2) hs).trans hs'⟩

theorem composes_stepwise : Composes fun _ => Stepwise r where
  pure := stepwise_pure
  bind := Stepwise.bind

/-- The parts of a request that may fail. -/
theorem Stepwise.bindRun {request : StoreM α} {next : α → StoreM β} (h : Stepwise r request.run)
    (hnext : ∀ a, Stepwise r (next a).run) : Stepwise r (request >>= next).run :=
  composes_stepwise.bindRun h hnext

theorem Stepwise.answer {request : StoreM α} (h : Stepwise r request.run) (say : α → Answer) :
    Stepwise r (request.answer say) :=
  composes_stepwise.answer h say

/-! ## Single requests -/

theorem stepwise_ask (read : Tables → Except StoreError α) :
    Stepwise r (Store.ask read).run := by
  intro s
  refine ⟨s.tables, .refl, fun _ => rfl, ?_⟩
  change (if s.isOpen then _ else _ : _ × Store).2 = s
  split <;> rfl

theorem stepwise_write {update : Tables → Except StoreError (α × Tables)}
    (h : ∀ t a u, update t = .ok (a, u) → Relation.ReflTransGen r t u) :
    Stepwise r (Store.write update).run := by
  intro s
  rcases hrun : (Store.write update).run s with ⟨e | a, s'⟩
  · exact ⟨s.tables, .refl, fun _ => rfl, Store.write_eq_error hrun⟩
  · obtain ⟨hwrite, u, hu, hs'⟩ := Store.write_eq_ok hrun
    exact ⟨u, h _ _ _ hu, fun hread => by simp [hwrite] at hread, hs'⟩

theorem stepwise_change {update : Tables → Except StoreError (α × Tables)}
    (h : ∀ t a u, update t = .ok (a, u) → Relation.ReflTransGen r t u) :
    Stepwise r (Store.change update).run := by
  intro s
  rcases hrun : (Store.change update).run s with ⟨e | a, s'⟩
  · exact ⟨s.tables, .refl, fun _ => rfl, Store.change_eq_error hrun⟩
  · obtain ⟨-, hwrite, u, hu, hs'⟩ := Store.change_eq_ok hrun
    exact ⟨u, h _ _ _ hu, fun hread => by simp [hwrite] at hread, hs'⟩

/-- A change that the database may refuse. -/
theorem stepwise_change_classify {update : Tables → Except Fault (α × Tables)}
    (h : ∀ t a u, update t = .ok (a, u) → Relation.ReflTransGen r t u) :
    Stepwise r (Store.change fun t => Store.classify (update t)).run :=
  stepwise_change fun t a u hu => h t a u (Store.classify_eq_ok_iff.1 hu)

/-- A change that always succeeds. -/
theorem stepwise_change_ok {update : Tables → α × Tables}
    (h : ∀ t, Relation.ReflTransGen r t (update t).2) :
    Stepwise r (Store.change fun t => .ok (update t)).run := by
  refine stepwise_change fun t a u hu => ?_
  rw [show u = (update t).2 from congrArg Prod.snd (Except.ok.inj hu).symm]
  exact h t

theorem stepwise_addRow {table : String} {add : Tables → Except Fault (Int × Tables)}
    (h : ∀ t i u, add t = .ok (i, u) → r t u) : Stepwise r (Store.addRow table add).run := by
  intro s
  by_cases hmem : s.inMemory = true
  · exact ⟨s.tables, .refl, fun _ => rfl, congrArg Prod.snd (if_pos hmem)⟩
  · have hwrite : Stepwise r (Store.write fun t => Store.classify (add t)).run :=
      stepwise_write fun t a u hu => .single (h t a u (Store.classify_eq_ok_iff.1 hu))
    obtain ⟨u, hu, hread, hs⟩ := hwrite s
    exact ⟨u, hu, hread, (congrArg Prod.snd (if_neg hmem)).trans hs⟩

/-! ## Requests about tracks -/

/-- A name is resolved by whatever adds the performer. -/
theorem Stepwise.resolvePerformer {name : String}
    (h : ∀ t : Tables, Relation.ReflTransGen r t (t.performerFor name).2) :
    Stepwise r (Store.resolvePerformer name).run := by
  refine stepwise_change_classify fun t id u hu => ?_
  rw [t.resolvePerformer_eq] at hu
  rw [show u = (t.performerFor name).2 from congrArg Prod.snd (Except.ok.inj hu).symm]
  exact h t

theorem Stepwise.resolveAlbum {directory name : String} {year : Int32}
    (h : ∀ t : Tables, Relation.ReflTransGen r t (t.albumFor directory name year).2) :
    Stepwise r (Store.resolveAlbum directory name year).run := by
  refine stepwise_change_classify fun t id u hu => ?_
  rw [t.resolveAlbum_eq] at hu
  rw [show u = (t.albumFor directory name year).2 from congrArg Prod.snd (Except.ok.inj hu).symm]
  exact h t

theorem Stepwise.insertTrack {track : Track} {performer album : Int}
    (h : ∀ t i u, t.insertTrack track performer album = .ok (i, u) → Relation.ReflTransGen r t u) :
    Stepwise r (Store.insertTrack track performer album).run :=
  composes_stepwise.insertTrack (stepwise_change_classify h)

theorem Stepwise.join {person group : Int}
    (h : ∀ t u, t.addMembership person group = .ok u → Relation.ReflTransGen r t u) :
    Stepwise r (Store.join person group).run := by
  refine stepwise_change_classify fun t _ u hu => ?_
  cases hadd : t.addMembership person group with
  | error e => rw [hadd] at hu; cases hu
  | ok v =>
    rw [hadd] at hu
    cases hu
    exact h t _ hadd

/-- A track is written back by whatever resolves its names and rewrites its row. -/
theorem Stepwise.updateTrack {track : Track}
    (hperformer : Stepwise r (Store.resolvePerformer track.artist).run)
    (halbum : Stepwise r (Store.resolveAlbum track.albumDir track.album track.year).run)
    (hrewrite : ∀ performer album t written u,
      t.rewriteTrack track performer album = .ok (written, u) → Relation.ReflTransGen r t u) :
    Stepwise r (Store.updateTrack track).run :=
  composes_stepwise.updateTrack (stepwise_ask _) hperformer halbum fun performer album =>
    stepwise_change_classify (hrewrite performer album)

/-! ## Adding to the library -/

theorem stepwise_resolvePerformer (name : String) :
    Stepwise Addition (Store.resolvePerformer name).run :=
  .resolvePerformer fun t => t.additions_performerFor name

theorem stepwise_resolveAlbum (directory name : String) (year : Int32) :
    Stepwise Addition (Store.resolveAlbum directory name year).run :=
  .resolveAlbum fun t => t.additions_albumFor directory name year

theorem stepwise_insertTrack (track : Track) (performer album : Int) :
    Stepwise Addition (Store.insertTrack track performer album).run :=
  .insertTrack fun _ _ _ => Tables.additions_of_insertTrack

theorem stepwise_join (person group : Int) : Stepwise Addition (Store.join person group).run :=
  .join fun _ _ => Tables.additions_of_addMembership

/-! ## Ingesting -/

theorem Stepwise.ingest {track : Track}
    (hperformer : Stepwise r (Store.resolvePerformer track.artist).run)
    (halbum : Stepwise r (Store.resolveAlbum track.albumDir track.album track.year).run)
    (hinsert : ∀ performer album, Stepwise r (Store.insertTrack track performer album).run) :
    Stepwise r (ingest track).run :=
  composes_stepwise.ingest (stepwise_ask _) (stepwise_ask _) hperformer halbum hinsert

theorem stepwise_ingest (track : Track) : Stepwise Addition (ingest track).run :=
  .ingest (stepwise_resolvePerformer _) (stepwise_resolveAlbum _ _ _) (stepwise_insertTrack _)

theorem stepwise_populate (patience : Patience) (tracks : List Track) :
    Stepwise Addition (populate patience tracks) :=
  composes_stepwise.populate stepwise_ingest patience tracks

/-! ## Every request -/

/-- Whether a request at most adds to the library, past neither the store nor its checks. -/
def Request.isAddition : Request → Bool
  | .updateTrack _ => false
  | .addPerformerRow _ _ => false
  | .addAlbumRow _ _ _ => false
  | .addTrackRow _ _ _ _ _ _ _ => false
  | .close => false
  | .reopen => false
  | _ => true

/-- **A request that at most adds to the library** takes the tables through additions. -/
theorem stepwise_addition {request : Request} (h : request.isAddition = true) :
    Stepwise Addition request.run := by
  cases request with
  | resolvePerformer name => exact (stepwise_resolvePerformer name).answer _
  | resolveAlbum directory name year => exact (stepwise_resolveAlbum directory name year).answer _
  | insertTrack track performer album =>
    exact (stepwise_insertTrack track performer album).answer _
  | populate tracks patience =>
    exact composes_stepwise.answerPopulate stepwise_ingest patience tracks
  | scan reader paths patience =>
    exact composes_stepwise.answerScan stepwise_ingest reader patience paths
  | search plan text => exact composes_stepwise.answerSearch (stepwise_ask _)
  | setKind id kind =>
    exact (stepwise_change_ok fun t => .single (t.addition_setKind id kind)).answer _
  | addPerson person =>
    exact (stepwise_change_ok fun t => .single (t.addition_addPerson person)).answer _
  | updatePerson person =>
    exact (stepwise_change_ok fun t => .single (t.addition_updatePerson person)).answer _
  | addGroup group =>
    exact (stepwise_change_ok fun t => .single (t.addition_addGroup group)).answer _
  | updateGroup group =>
    exact (stepwise_change_ok fun t => .single (t.addition_updateGroup group)).answer _
  | join person group => exact (stepwise_join person group).answer _
  | updateTrack track => cases h
  | close => cases h
  | reopen => cases h
  | addPerformerRow kind name => cases h
  | addAlbumRow directory name year => cases h
  | addTrackRow performer album path title number year genre => cases h
  | _ => exact (stepwise_ask _).answer _

theorem stepwise_updateTrack (track : Track) : Stepwise Step (Store.updateTrack track).run :=
  .updateTrack ((stepwise_resolvePerformer _).mono fun _ _ => Addition.step)
    ((stepwise_resolveAlbum _ _ _).mono fun _ _ => Addition.step)
    fun _ _ _ _ _ => Tables.steps_of_rewriteTrack

/-- Closing a store does nothing else. -/
theorem run_close (s : Store) : (Request.close.run s) = (.done, { s with isOpen := false }) :=
  rfl

/-- A store that is opened again has its tables, unless they were in memory. -/
theorem run_reopen (s : Store) : (Request.reopen.run s) =
    (.done, { s with isOpen := true, tables := if s.inMemory then {} else s.tables }) :=
  rfl

/-- **Whatever is asked** takes the tables through steps, unless the store is closed or opened. -/
theorem stepwise_run {request : Request} (hclose : request ≠ .close)
    (hreopen : request ≠ .reopen) : Stepwise Step request.run := by
  by_cases hadd : request.isAddition = true
  · exact (stepwise_addition hadd).mono fun _ _ => Addition.step
  cases request with
  | updateTrack track => exact (stepwise_updateTrack track).answer _
  | addPerformerRow kind name =>
    exact (stepwise_addRow (r := Step) fun _ _ _ h => Tables.step_of_addPerformer h).answer _
  | addAlbumRow directory name year =>
    exact (stepwise_addRow (r := Step) fun _ _ _ h => Tables.step_of_addAlbum h).answer _
  | addTrackRow performer album path title number year genre =>
    exact (stepwise_addRow (r := Step) fun _ _ _ h => Tables.step_of_addTrack h).answer _
  | close => exact absurd rfl hclose
  | reopen => exact absurd rfl hreopen
  | _ => exact absurd rfl hadd

/-- A request takes the tables through the steps that it is made of, unless they are in memory and
opened again; closing a store leaves them alone. -/
theorem tables_run {request : Request} {s : Store}
    (hrun : request ≠ .close → request ≠ .reopen → Stepwise r request.run)
    (hkept : request = .reopen → s.inMemory = false) :
    Relation.ReflTransGen r s.tables (request.run.run s).2.tables := by
  by_cases hreopen : request = .reopen
  · have htables : (request.run.run s).2.tables = s.tables := by
      rw [hreopen]
      exact if_neg (by simp [hkept hreopen])
    rw [htables]
  · by_cases hclose : request = .close
    · rw [hclose]
      exact .refl
    · obtain ⟨u, hu, -, hs⟩ := hrun hclose hreopen s
      have htables : (request.run.run s).2.tables = u := congrArg Store.tables hs
      rwa [htables]

/-- **What the steps of a request lead to** holds of the tables after it, if it holds of empty tables
too: these are what is left of a library in memory that is opened again. -/
theorem tables_run_of_steps {P : Tables → Prop} {request : Request} {s : Store} (hempty : P {})
    (hrun : request ≠ .close → request ≠ .reopen → Stepwise r request.run)
    (hsteps : ∀ u, Relation.ReflTransGen r s.tables u → P u) :
    P (request.run.run s).2.tables := by
  by_cases hlost : request = .reopen ∧ s.inMemory = true
  · obtain ⟨rfl, hmem⟩ := hlost
    have htables : (Request.reopen.run.run s).2.tables = {} := if_pos hmem
    rwa [htables]
  · exact hsteps _ (tables_run hrun fun hreopen => by simpa [hreopen] using hlost)

/-- Other requests than those to close and to open a store leave it as open as it is, and tables
that may only be read as they are. -/
theorem frame_run {request : Request} (hclose : request ≠ .close) (hreopen : request ≠ .reopen)
    (s : Store) : ∃ u, (s.readOnly = true → u = s.tables) ∧
      (request.run.run s).2 = { s with tables := u } := by
  obtain ⟨u, -, hread, hs⟩ := stepwise_run hclose hreopen s
  exact ⟨u, hread, hs⟩

/-- Where the tables of a store are is settled once. -/
theorem inMemory_run (request : Request) (s : Store) :
    (request.run.run s).2.inMemory = s.inMemory := by
  by_cases hreopen : request = .reopen
  · rw [hreopen]
    rfl
  · by_cases hclose : request = .close
    · rw [hclose]
      rfl
    · obtain ⟨u, -, hs⟩ := frame_run hclose hreopen s
      rw [hs]

/-! ## Histories -/

theorem run_mapM_cons {σ : Type} (ask : Request → StateM σ Answer) (request : Request)
    (requests : List Request) (s : σ) :
    ((request :: requests).mapM ask).run s =
      (((ask request).run s).1 :: ((requests.mapM ask).run ((ask request).run s).2).1,
        ((requests.mapM ask).run ((ask request).run s).2).2) := by
  rw [List.mapM_cons]
  rfl

theorem Request.runAll_cons (request : Request) (requests : List Request) (s : Store) :
    (runAll (request :: requests)).run s =
      ((request.run.run s).1 :: ((runAll requests).run (request.run.run s).2).1,
        ((runAll requests).run (request.run.run s).2).2) :=
  run_mapM_cons run request requests s

end Fonoteca
