import Fonoteca.Proofs.Scan.Completion
import Fonoteca.Proofs.Store.Trimmed

/-!
# Looking up before resolving

An ingestion looks a performer up by the name as the track has it, and resolves the name only if
there is none.  Resolving goes by the trimmed name.  The two agree because no name that is stored
has blanks around it: a name that is found as it is, is trimmed.

* `Store.lookUpPerformer` and `Store.lookUpAlbum` look up before they resolve.
* `ingestWith` puts in a track with given ways to get its performer and its album, `populateWith`
  puts in a list of tracks with a given way to put in one.  With look-ups these are `ingest` and
  `populate` (`ingest_eq_ingestWith`, `populate_eq_populateWith`).
* **`Store.ReachableBy.lookUp_agrees`** : looking up first changes neither what a name is resolved to
  nor what an ingestion does.
-/

set_option autoImplicit false

namespace Fonoteca

open Tables (Sound Trimmed Additions)

/-! ## Ways to get a performer and an album -/

namespace Store

/-- The number that is found, or the one that a name is resolved to if none is found. -/
def lookUp (find : StoreM (Option Int)) (resolve : StoreM Int) : StoreM Int := do
  match ← find with
  | some id => pure id
  | none => resolve

/-- The number of the performer of a name, which is looked up as it is before it is resolved. -/
def lookUpPerformer (name : String) : StoreM Int :=
  lookUp (performerNamed? name) (resolvePerformer name)

/-- The number of the album of a name in a folder, which is looked up before it is resolved. -/
def lookUpAlbum (directory name : String) (year : Int32) : StoreM Int :=
  lookUp (albumNamed? directory name) (resolveAlbum directory name year)

/-- What goes on with a number goes on with it wherever it came from. -/
theorem lookUp_bind {α : Type} (find : StoreM (Option Int)) (resolve : StoreM Int)
    (next : Int → StoreM α) :
    lookUp find resolve >>= next = find >>= fun found => match found with
      | some id => pure id >>= next
      | none => resolve >>= next := by
  rw [lookUp, bind_assoc]
  refine congrArg (find >>= ·) (funext fun found => ?_)
  cases found <;> rfl

end Store

/-- Puts a track into the store, with its performer and album got in given ways, and gives it back
with its identity if it is new. -/
def ingestWith (getPerformer : String → StoreM Int) (getAlbum : String → String → Int32 → StoreM Int)
    (track : Track) : StoreM (Option Track) := do
  let performer ← getPerformer track.artist
  let album ← getAlbum track.albumDir track.album track.year
  match ← Store.insertTrack track performer album with
  | .inserted id => return some (track.assignId id).2
  | .alreadyPresent => return none

/-- Puts tracks into the store in order, each in a given way. -/
def populateWith (put : Track → StoreM (Option Track)) : Patience → List Track →
    StateM Store (List Track × Except StoreError IngestionReport)
  | _, [] => return ([], .ok {})
  | patience, track :: tracks => do
    match ← (put track).run with
    | .error e => return ([], .error e)
    | .ok (some new) =>
      let (accepted, result) ← populateWith put patience.spend tracks
      return (patience.receive new accepted,
        result.map fun r => { r with inserted := r.inserted + 1 })
    | .ok none =>
      let (accepted, result) ← populateWith put patience tracks
      return (accepted, result.map fun r => { r with skipped := r.skipped + 1 })

/-- An ingestion looks names up before it resolves them. -/
theorem ingest_eq_ingestWith (track : Track) :
    ingest track = ingestWith Store.lookUpPerformer Store.lookUpAlbum track := by
  rw [ingestWith, Store.lookUpPerformer, Store.lookUp_bind]
  simp only [Store.lookUpAlbum, Store.lookUp_bind]
  rfl

theorem populate_eq_populateWith (patience : Patience) (tracks : List Track) :
    populate patience tracks = populateWith ingest patience tracks := by
  induction tracks generalizing patience with
  | nil => rfl
  | cons track tracks ih =>
    rw [populate, populateWith]
    refine congrArg ((ingest track).run >>= ·) (funext fun outcome => ?_)
    rcases outcome with e | _ | new
    · rfl
    · exact congrArg (· >>= _) (ih patience)
    · exact congrArg (· >>= _) (ih patience.spend)

/-! ## Looking up comes to the same -/

/-- A performer who is found under a name as it is, is the one that the name is resolved to. -/
theorem Tables.Trimmed.performerFor_of_named {t : Tables} (h : Trimmed t) {name : String} {id : Int}
    (hid : t.performerNamed? name = some id) : t.performerFor name = (id, t) := by
  rw [performerFor, h.trim_of_named hid, hid]

namespace Store

variable {s : Store} {find : Tables → Option Int} {update : Tables → Except Fault (Int × Tables)}
  {outcome : Tables → Int × Tables}

theorem run_lookUp_found (hopen : s.isOpen = true) (resolve : StoreM Int) {id : Int}
    (hid : find s.tables = some id) :
    (lookUp (ask fun t => .ok (find t)) resolve).run s = (.ok id, s) := by
  have hfind : (ask fun t => .ok (find t)).run s = (.ok (some id), s) := by
    rw [run_ask hopen, hid]
  exact StoreM.run_bind_ok hfind _

theorem run_lookUp_absent (hopen : s.isOpen = true) (resolve : StoreM Int)
    (hnone : find s.tables = none) :
    (lookUp (ask fun t => .ok (find t)) resolve).run s = resolve.run s := by
  have hfind : (ask fun t => .ok (find t)).run s = (.ok none, s) := by
    rw [run_ask hopen, hnone]
  exact StoreM.run_bind_ok hfind _

/-- **Looking up before resolving** comes to the same unless the store may only be read, if a name
that is found is resolved to what was found. -/
theorem run_lookUp (hstore : s.readOnly = false ∨ s.isOpen = false)
    (hupdate : ∀ t, update t = .ok (outcome t))
    (hfound : ∀ id, find s.tables = some id → outcome s.tables = (id, s.tables)) :
    (lookUp (ask fun t => .ok (find t)) (change fun t => classify (update t))).run s =
      (change fun t => classify (update t)).run s := by
  by_cases hopen : s.isOpen = true
  · have hwrite : s.readOnly = false := hstore.resolve_right (by simp [hopen])
    cases hname : find s.tables with
    | none => exact run_lookUp_absent hopen _ hname
    | some id =>
      have hresolved : classify (update s.tables) = .ok (id, s.tables) := by
        rw [hupdate, hfound id hname]
        rfl
      exact (run_lookUp_found hopen _ hname).trans (run_change_ok hopen hwrite hresolved).symm
  · have hclosed : s.isOpen = false := by simpa using hopen
    exact (StoreM.run_bind_error (run_ask_closed hclosed _) _).trans
      (run_change_closed hclosed _).symm

theorem run_lookUpPerformer (htrimmed : Trimmed s.tables)
    (hstore : s.readOnly = false ∨ s.isOpen = false) (name : String) :
    (lookUpPerformer name).run s = (resolvePerformer name).run s :=
  run_lookUp hstore (fun t => t.resolvePerformer_eq name) fun _ => htrimmed.performerFor_of_named

theorem run_lookUpAlbum (hstore : s.readOnly = false ∨ s.isOpen = false) (directory name : String)
    (year : Int32) :
    (lookUpAlbum directory name year).run s = (resolveAlbum directory name year).run s :=
  run_lookUp hstore (fun t => t.resolveAlbum_eq directory name year) fun _ =>
    Tables.albumFor_of_named year

/-- A store that may only be read finds who is there, and refuses to resolve a name. -/
theorem run_lookUp_readOnly (hopen : s.isOpen = true) (hread : s.readOnly = true)
    (find : Tables → Option Int) (update : Tables → Except StoreError (Int × Tables)) :
    (lookUp (ask fun t => .ok (find t)) (change update)).run s =
      ((find s.tables).elim (.error (.query .readOnly)) .ok, s) := by
  cases hname : find s.tables with
  | some id => exact run_lookUp_found hopen _ hname
  | none => exact (run_lookUp_absent hopen _ hname).trans (run_change_readOnly hopen hread update)

/-- **A track is put in the same** without looking anything up, in every kind of store: one that may
only be read refuses it in the end, if not at once. -/
theorem run_ingest_eq (hsound : Sound s.tables) (htrimmed : Trimmed s.tables) (track : Track) :
    (ingest track).run s = (ingestWith resolvePerformer resolveAlbum track).run s := by
  by_cases hstore : s.readOnly = false ∨ s.isOpen = false
  · rw [ingest_eq_ingestWith, ingestWith, ingestWith]
    refine StoreM.run_bind_congr (run_lookUpPerformer htrimmed hstore _) fun performer s₁ hs₁ => ?_
    refine StoreM.run_bind_congr (run_lookUpAlbum ?_ _ _ _) fun _ _ _ => rfl
    obtain ⟨-, -, u, -, rfl⟩ := change_eq_ok hs₁
    exact hstore
  · obtain ⟨hread, hopen⟩ : s.readOnly = true ∧ s.isOpen = true := by simpa using hstore
    rw [run_ingest_readOnly hsound hopen hread]
    exact (StoreM.run_bind_error (run_change_readOnly hopen hread _) _).symm

end Store

/-! ## Lists of tracks -/

/-- A list of tracks goes in track by track, in whatever way. -/
theorem run_populateWith_cons (put : Track → StoreM (Option Track)) (patience : Patience)
    (track : Track) (tracks : List Track) (s : Store) :
    (populateWith put patience (track :: tracks)).run s =
      match (put track).run.run s with
      | (.error e, s₁) => (([], .error e), s₁)
      | (.ok new, s₁) =>
        let ((later, result), s₂) := (populateWith put (patience.after new) tracks).run s₁
        ((patience.hand new later, result.map (·.count new)), s₂) := by
  rw [populateWith, StateT.run_bind]
  rcases (put track).run.run s with ⟨e | _ | new, s₁⟩ <;> rfl

/-- **Two ways to put in a track put in a list of tracks the same** if they do so with one track in
all stores of a kind, and lead from such a store to another. -/
theorem run_populateWith_congr {P : Store → Prop} {put put' : Track → StoreM (Option Track)}
    (hput : ∀ track s, P s →
      (put track).run.run s = (put' track).run.run s ∧ P ((put track).run.run s).2)
    {s : Store} (hs : P s) (patience : Patience) (tracks : List Track) :
    (populateWith put patience tracks).run s = (populateWith put' patience tracks).run s := by
  induction tracks generalizing s patience with
  | nil => rfl
  | cons track tracks ih =>
    obtain ⟨hsame, hafter⟩ := hput track s hs
    rw [run_populateWith_cons, run_populateWith_cons, ← hsame]
    rcases hfirst : (put track).run.run s with ⟨e | new, s₁⟩
    · rfl
    · rw [hfirst] at hafter
      dsimp only
      rw [ih hafter]

namespace Store

/-- **Looking up before resolving agrees with resolving at once**, in every store whose rows all
came from its own requests.  If the store may be written or is closed, each name gives the same
answer and leaves the same store, and an open store gives a number.  An open store that may only be
read refuses to resolve even the names that are there, which looking up finds.  In all of these
stores alike an ingestion does the same as it would without looking anything up. -/
theorem ReachableBy.lookUp_agrees {s : Store} (hs : s.ReachableBy Request.isInside) :
    (s.readOnly = false ∨ s.isOpen = false →
      (∀ artist, (lookUpPerformer artist).run s = (resolvePerformer artist).run s) ∧
      ∀ directory album year,
        (lookUpAlbum directory album year).run s = (resolveAlbum directory album year).run s) ∧
    (s.readOnly = false → s.isOpen = true →
      (∀ artist, ∃ id s', (resolvePerformer artist).run s = (.ok id, s')) ∧
      ∀ directory album year, ∃ id s', (resolveAlbum directory album year).run s = (.ok id, s')) ∧
    (s.readOnly = true → s.isOpen = true →
      (∀ artist, (resolvePerformer artist).run s = (.error (.query .readOnly), s) ∧
        (lookUpPerformer artist).run s =
          ((s.tables.performerNamed? artist).elim (.error (.query .readOnly)) .ok, s)) ∧
      ∀ directory album year,
        (resolveAlbum directory album year).run s = (.error (.query .readOnly), s) ∧
        (lookUpAlbum directory album year).run s =
          ((s.tables.albumNamed? directory album).elim (.error (.query .readOnly)) .ok, s)) ∧
    ∀ patience tracks, (populate patience tracks).run s =
      (populateWith (ingestWith resolvePerformer resolveAlbum) patience tracks).run s := by
  refine ⟨fun hstore => ⟨run_lookUpPerformer hs.trimmed hstore, run_lookUpAlbum hstore⟩,
    fun hwrite hopen => ⟨fun artist => ⟨_, _, run_resolvePerformer hopen hwrite artist⟩,
      fun directory album year => ⟨_, _, run_resolveAlbum hopen hwrite directory album year⟩⟩,
    fun hread hopen => ⟨fun artist => ⟨run_change_readOnly hopen hread _, ?_⟩,
      fun directory album year => ⟨run_change_readOnly hopen hread _, ?_⟩⟩,
    fun patience tracks => ?_⟩
  · exact run_lookUp_readOnly hopen hread (·.performerNamed? artist) _
  · exact run_lookUp_readOnly hopen hread (·.albumNamed? directory album) _
  · rw [populate_eq_populateWith]
    refine run_populateWith_congr (P := fun s => Sound s.tables ∧ Trimmed s.tables)
      (fun track s h => ⟨run_ingest_eq h.1 h.2 track, ?_⟩) ⟨hs.reachable.sound, hs.trimmed⟩ _ _
    obtain ⟨u, hu, -, hafter⟩ := stepwise_ingest track s
    rw [show ((ingest track).run.run s).2 = _ from hafter]
    exact ⟨.additions hu h.1, (Additions.extends hu).trimmed h.2⟩

theorem reachableBy_oneTrack : oneTrack.ReachableBy Request.isInside := by
  have hscanned : ((Request.populate [lostLetter] none).run.run ({} : Store)).2 = oneTrack := by
    decide +kernel
  exact hscanned ▸ (ReachableBy.new false false).answered (.populate [lostLetter] none) rfl

/-- The performer of the one track is found under the trimmed name only, and resolved under any; a
second track by this performer is put in without looking anything up. -/
theorem lookUp_agrees_oneTrack :
    (∃ id s', (lookUpPerformer " Iris ").run oneTrack = (.ok id, s') ∧
      (resolvePerformer " Iris ").run oneTrack = (.ok id, s')) ∧
    (lookUpPerformer "Iris").run { oneTrack with readOnly := true } =
      (.ok 1, { oneTrack with readOnly := true }) ∧
    (populate none [{ lostLetter with artist := " Iris ", path := "b.mp3" }]).run oneTrack =
      (populateWith (ingestWith resolvePerformer resolveAlbum) none
        [{ lostLetter with artist := " Iris ", path := "b.mp3" }]).run oneTrack := by
  obtain ⟨hsame, hresolved, -, hpopulate⟩ := reachableBy_oneTrack.lookUp_agrees
  obtain ⟨-, -, hread, -⟩ := (reachableBy_oneTrack.opened true rfl).lookUp_agrees
  obtain ⟨id, s', hid⟩ := (hresolved rfl rfl).1 " Iris "
  exact ⟨⟨id, s', ((hsame (.inl rfl)).1 _).trans hid, hid⟩, ((hread rfl rfl).1 "Iris").2,
    hpopulate _ _⟩

/-- **Not every open store resolves a name that it finds**: one that was opened for reading only
finds the performer of its track and refuses to resolve the name. -/
theorem lookUp_disagrees_readOnly :
    ∃ s : Store, s.ReachableBy Request.isInside ∧ s.isOpen = true ∧
      (lookUpPerformer "Iris").run s = (.ok 1, s) ∧
      (resolvePerformer "Iris").run s = (.error (.query .readOnly), s) :=
  ⟨{ oneTrack with readOnly := true }, reachableBy_oneTrack.opened true rfl, rfl,
    run_lookUp_readOnly rfl rfl (·.performerNamed? "Iris") _, run_change_readOnly rfl rfl _⟩

end Store
end Fonoteca
