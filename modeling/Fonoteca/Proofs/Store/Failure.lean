import Fonoteca.Proofs.Scan.Completion

/-!
# Failures leave nothing behind

Some requests are made of several changes, each of which is there to stay once it is made.  They
still fail only as long as nothing has changed: what may be refused is asked first, and once the
first change of the store is through, what comes after it is through as well.

* `KeepsOnFailure` says of a request, in a given store, that this store stays if the request fails.
  It holds of a request that only asks and of a single change.
* `Store.run_restoreTrack` : names resolved and the row written, in a store that may be written.
* **`Store.Reachable.keeps_of_failure`** : it holds of every request to every store.
-/

set_option autoImplicit false

namespace Fonoteca

open Tables (Sound)

variable {α β : Type} {s : Store}

/-- Whether an answer says that the request failed. -/
def Answer.isFailure : Answer → Bool
  | .refused _ | .unsearchable _ | .unpopulated _ _ | .unscanned _ _ => true
  | _ => false

/-- The numbers that the next row of each table gets. -/
def Tables.nextIds (t : Tables) : List Int :=
  [t.nextPerformer, t.nextAlbum, t.nextTrack, t.nextPerson, t.nextGroup]

/-- If the request fails, the store is left as it was. -/
def KeepsOnFailure (s : Store) (request : StoreM α) : Prop :=
  ∀ e s', request.run s = (.error e, s') → s' = s

/-- A request that is known not to change the store leaves it as it was. -/
theorem keeps_of_same {request : StoreM α} {result : Except StoreError α}
    (h : request.run s = (result, s)) : KeepsOnFailure s request := by
  intro e s' hrun
  rw [h] at hrun
  exact (congrArg Prod.snd hrun).symm

/-- A request that succeeds does not fail. -/
theorem keeps_of_ok {request : StoreM α} {a : α} {s₁ : Store}
    (h : request.run s = (.ok a, s₁)) : KeepsOnFailure s request := by
  intro e s' hrun
  rw [h] at hrun
  cases hrun

/-! ## Requests of one part -/

theorem keeps_throw (s : Store) (e : StoreError) : KeepsOnFailure s (throw e : StoreM α) :=
  keeps_of_same rfl

theorem keeps_ask (s : Store) (read : Tables → Except StoreError α) :
    KeepsOnFailure s (Store.ask read) := by
  by_cases hopen : s.isOpen = true
  · exact keeps_of_same (Store.run_ask hopen read)
  · exact keeps_of_same (Store.run_ask_closed (by simpa using hopen) read)

theorem keeps_change (s : Store) (update : Tables → Except StoreError (α × Tables)) :
    KeepsOnFailure s (Store.change update) :=
  fun _ _ => Store.change_eq_error

theorem keeps_addRow (s : Store) (table : String)
    (add : Tables → Except Fault (Int × Tables)) :
    KeepsOnFailure s (Store.addRow table add) := by
  by_cases hmem : s.inMemory = true
  · exact keeps_of_same (if_pos hmem)
  · intro e s' hrun
    rw [show (Store.addRow table add).run s = _ from if_neg hmem] at hrun
    exact Store.write_eq_error hrun

theorem keeps_insertTrack (s : Store) (track : Track) (performer album : Int) :
    KeepsOnFailure s (Store.insertTrack track performer album) := by
  rw [Store.insertTrack]
  split
  · exact keeps_throw s _
  · split
    · exact keeps_throw s _
    · exact keeps_change s _

/-- What is asked first may fail, and what follows if it is answered. -/
theorem keeps_ask_bind {read : Tables → Except StoreError α} {next : α → StoreM β}
    (h : s.isOpen = true → ∀ a, read s.tables = .ok a → KeepsOnFailure s (next a)) :
    KeepsOnFailure s (Store.ask read >>= next) := by
  by_cases hopen : s.isOpen = true
  · have hask := Store.run_ask hopen read
    cases hread : read s.tables with
    | error e =>
      rw [hread] at hask
      exact keeps_of_same (StoreM.run_bind_error hask next)
    | ok a =>
      rw [hread] at hask
      intro e s' hrun
      rw [StoreM.run_bind_ok hask] at hrun
      exact h hopen a hread e s' hrun
  · exact keeps_of_same
      (StoreM.run_bind_error (Store.run_ask_closed (by simpa using hopen) read) next)

/-! ## Writing a track back -/

namespace Tables

/-- Writes a track anew, with its names resolved. -/
def restore (t : Tables) (track : Track) : Tables :=
  let artist := t.performerFor track.artist
  let album := artist.2.albumFor track.albumDir track.album track.year
  album.2.replaceTrack track artist.1 album.1

/-- A row is written for a performer and an album that are there. -/
theorem rewriteTrack_eq {t : Tables} {track : Track} {performer album : Int}
    (htrack : (t.track? track.id).isSome) (hperformer : (t.performer? performer).isSome)
    (halbum : (t.album? album).isSome) :
    t.rewriteTrack track performer album = .ok (true, t.replaceTrack track performer album) := by
  have hrefs : (t.performer? performer).isSome ∧ (t.album? album).isSome := ⟨hperformer, halbum⟩
  rw [rewriteTrack, if_neg (by simpa using Option.isSome_iff_ne_none.1 htrack),
    demand_of_true _ hrefs]
  rfl

/-- A track that is read has a row. -/
theorem Sound.track?_of_readTrack {t : Tables} (h : Sound t) {id : Int} {track : Track}
    (hread : t.readTrack id = .ok (some track)) : (t.track? id).isSome := by
  rw [readTrack] at hread
  split at hread
  · next row hrow =>
    obtain ⟨r, hr, hshows⟩ := h.mem_joined_iff.1 (List.mem_of_find?_eq_some hrow)
    have hid : row.id = id := by simpa using List.find?_some hrow
    rw [track?, List.find?_isSome]
    exact ⟨r, hr, by simp [← hshows.id, hid]⟩
  · cases hread

end Tables

theorem Store.run_rewriteTrack (hopen : s.isOpen = true) (hwrite : s.readOnly = false)
    {track : Track} {performer album : Int} (htrack : (s.tables.track? track.id).isSome)
    (hperformer : (s.tables.performer? performer).isSome)
    (halbum : (s.tables.album? album).isSome) :
    (rewriteTrack track performer album).run s =
      (.ok (), { s with tables := s.tables.replaceTrack track performer album }) := by
  have hwritten : (change fun t => classify (t.rewriteTrack track performer album)).run s =
      (.ok true, { s with tables := s.tables.replaceTrack track performer album }) := by
    refine run_change_ok hopen hwrite ?_
    rw [Tables.rewriteTrack_eq htrack hperformer halbum]
    rfl
  exact StoreM.run_bind_ok hwritten _

/-- **Writing back a track that is there succeeds**: resolving its names takes no track away, and
what they are resolved to is there. -/
theorem Store.run_restoreTrack (hopen : s.isOpen = true) (hwrite : s.readOnly = false)
    {track : Track} (htrack : (s.tables.track? track.id).isSome) :
    (restoreTrack track).run s = (.ok (), { s with tables := s.tables.restore track }) := by
  have hperformer := s.tables.performer?_performerFor track.artist
  have htracks := s.tables.tracks_performerFor track.artist
  rw [restoreTrack, Tables.restore]
  refine (StoreM.run_bind_ok (run_resolvePerformer hopen hwrite track.artist) _).trans ?_
  generalize s.tables.performerFor track.artist = artist at hperformer htracks ⊢
  obtain ⟨performer, t₁⟩ := artist
  refine (StoreM.run_bind_ok (run_resolveAlbum (s := { s with tables := t₁ }) hopen hwrite
    track.albumDir track.album track.year) _).trans ?_
  have halbum := t₁.album?_albumFor track.albumDir track.album track.year
  have htracks' := t₁.tracks_albumFor track.albumDir track.album track.year
  have hperformers := t₁.performers_albumFor track.albumDir track.album track.year
  generalize t₁.albumFor track.albumDir track.album track.year = filed
    at halbum htracks' hperformers ⊢
  obtain ⟨album, t₂⟩ := filed
  have htrack' : (t₂.track? track.id).isSome := by
    rw [Tables.track?, htracks', htracks]
    exact htrack
  have hperformer' : (t₂.performer? performer).isSome := by
    rw [Tables.performer?, hperformers]
    exact hperformer
  exact run_rewriteTrack (s := { s with tables := t₂ }) hopen hwrite htrack' hperformer' halbum

/-- A track is looked up before anything is written for it. -/
theorem keeps_updateTrack (h : Sound s.tables) (track : Track) :
    KeepsOnFailure s (Store.updateTrack track) := by
  refine keeps_ask_bind fun hopen found hfound => ?_
  cases found with
  | none => exact keeps_throw s _
  | some old =>
    have htrack := h.track?_of_readTrack (Store.classify_eq_ok_iff.1 hfound)
    by_cases hread : s.readOnly = true
    · exact keeps_of_same
        (StoreM.run_bind_error (Store.run_change_readOnly hopen hread _) _)
    · exact keeps_of_ok (Store.run_restoreTrack hopen (by simpa using hread) htrack)

/-! ## Ingestion -/

/-- An ingestion that fails does so before its first track. -/
theorem keeps_populate (h : Sound s.tables) {patience : Patience} {tracks accepted : List Track}
    {e : StoreError} {s' : Store}
    (hrun : (populate patience tracks).run s = ((accepted, .error e), s')) : s' = s := by
  cases tracks with
  | nil => cases hrun
  | cons track tracks =>
    by_cases hopen : s.isOpen = true
    · by_cases hread : s.readOnly = true
      · rw [Store.run_populate_readOnly h hopen hread] at hrun
        exact (congrArg Prod.snd hrun).symm
      · obtain ⟨_, _, hok⟩ :=
          Store.run_populate h hopen (by simpa using hread) patience (track :: tracks)
        rw [hok] at hrun
        cases hrun
    · rw [Store.run_populate_closed (by simpa using hopen)] at hrun
      exact (congrArg Prod.snd hrun).symm

theorem keeps_scanFiles (h : Sound s.tables) {reader : TagReader} {patience : Patience}
    {paths : List Path} {accepted : List Track} {e : LibraryError} {s' : Store}
    (hrun : (scanFiles reader patience paths).run s = ((accepted, .error e), s')) : s' = s := by
  rw [scanFiles, StateT.run_bind] at hrun
  rcases hpop : (populate patience (extract reader none paths).1).run s with
    ⟨⟨got, e' | report⟩, s₁⟩
  · rw [hpop] at hrun
    cases hrun
    exact keeps_populate h hpop
  · rw [hpop] at hrun
    cases hrun

/-! ## Every request -/

/-- The store stays as it was if what is asked leaves it so whenever the answer is a failure. -/
theorem keeps_answered {m : StateM Store α} {say : α → StateM Store Answer}
    (hsay : ∀ a s₁, ((say a).run s₁).2 = s₁)
    (h : ∀ a s₁, m.run s = (a, s₁) → ((say a).run s₁).1.isFailure = true → s₁ = s)
    {answer : Answer} {s' : Store} (hrun : (m >>= say).run s = (answer, s'))
    (hfail : answer.isFailure = true) : s' = s := by
  rw [StateT.run_bind] at hrun
  rcases hm : m.run s with ⟨a, s₁⟩
  rw [hm] at hrun
  have hsame : s' = s₁ := (congrArg Prod.snd hrun).symm.trans (hsay a s₁)
  have hanswer : ((say a).run s₁).1 = answer := congrArg Prod.fst hrun
  exact hsame.trans (h a s₁ hm (hanswer ▸ hfail))

/-- The answer says whether the request failed. -/
theorem KeepsOnFailure.answer {request : StoreM α} (h : KeepsOnFailure s request) {say : α → Answer}
    (hsay : ∀ a, (say a).isFailure = false) {answer : Answer} {s' : Store}
    (hrun : (request.answer say).run s = (answer, s')) (hfail : answer.isFailure = true) :
    s' = s := by
  refine keeps_answered ?_ ?_ hrun hfail
  · rintro (e | a) s₁ <;> rfl
  · rintro (e | a) s₁ hreq hfailed
    · exact h e s₁ hreq
    · exact absurd ((hsay a).symm.trans hfailed) Bool.false_ne_true

/-- **A request that fails leaves the store as it was.** -/
theorem keeps_run (h : Sound s.tables) {request : Request} {answer : Answer} {s' : Store}
    (hrun : request.run.run s = (answer, s')) (hfail : answer.isFailure = true) : s' = s := by
  cases request with
  | populate tracks patience =>
    refine keeps_answered ?_ ?_ hrun hfail
    · rintro ⟨accepted, e | report⟩ s₁ <;> rfl
    · rintro ⟨accepted, e | report⟩ s₁ hpopulate hfailed
      · exact keeps_populate h hpopulate
      · cases hfailed
  | scan reader paths patience =>
    refine keeps_answered ?_ ?_ hrun hfail
    · rintro ⟨accepted, e | summary⟩ s₁ <;> rfl
    · rintro ⟨accepted, e | summary⟩ s₁ hscan hfailed
      · exact keeps_scanFiles h hscan
      · cases hfailed
  | search plan text =>
    refine keeps_answered ?_ ?_ hrun hfail
    · rintro (e | ids) s₁ <;> rfl
    · rintro (e | ids) s₁ hsearch hfailed
      · exact keeps_ask s _ e s₁ hsearch
      · cases hfailed
  | updateTrack track => exact (keeps_updateTrack h track).answer (fun _ => rfl) hrun hfail
  | insertTrack track performer album =>
    exact (keeps_insertTrack s track performer album).answer (fun _ => rfl) hrun hfail
  | addPerformerRow kind name =>
    exact (keeps_addRow s _ _).answer (fun _ => rfl) hrun hfail
  | addAlbumRow directory name year =>
    exact (keeps_addRow s _ _).answer (fun _ => rfl) hrun hfail
  | addTrackRow performer album path title number year genre =>
    exact (keeps_addRow s _ _).answer (fun _ => rfl) hrun hfail
  | resolvePerformer | resolveAlbum | setKind | addPerson | updatePerson | addGroup | updateGroup
  | join => exact (keeps_change s _).answer (fun _ => rfl) hrun hfail
  | close | reopen =>
    cases hrun
    cases hfail
  | _ => exact (keeps_ask s _).answer (fun _ => rfl) hrun hfail

/-- **Failures are atomic.**  Whatever is asked of a store that can come about, and whenever a scan
of a disk fails, the tables are then as they were, each next row will have the number that it would
have had, and the store is as open as it was. -/
theorem Store.Reachable.keeps_of_failure {s : Store} (hs : s.Reachable) :
    (∀ (request : Request) (answer : Answer) (s' : Store),
      request.run.run s = (answer, s') → answer.isFailure = true →
      s' = s ∧ s'.tables.nextIds = s.tables.nextIds) ∧
    ∀ (γ : Type) (disk : Disk γ) (reader : TagReader) (extension : String) (patience : Patience)
      (root : Path) (accepted : List Track) (e : LibraryError) (s' : Store),
      (scan disk reader extension patience root).run s = ((accepted, .error e), s') →
      s' = s ∧ s'.tables.nextIds = s.tables.nextIds := by
  refine ⟨fun request answer s' hrun hfail => ?_,
    fun γ disk reader extension patience root accepted e s' hrun => ?_⟩
  · obtain rfl := keeps_run hs.sound hrun hfail
    exact ⟨rfl, rfl⟩
  · obtain rfl := keeps_scanFiles hs.sound hrun
    exact ⟨rfl, rfl⟩

/-- A track that is not there is not written back, and its new artist is not added. -/
theorem Store.keeps_of_failure_oneTrack :
    ∃ s', (Request.updateTrack { lostLetter with artist := "Nova", id := 999 }).run.run
        Store.oneTrack = (.refused (.notFound .track 999), s') ∧
      s' = Store.oneTrack ∧ s'.tables.nextIds = [2, 2, 2, 1, 1] := by
  have hrun : (Request.updateTrack { lostLetter with artist := "Nova", id := 999 }).run.run
      Store.oneTrack = (.refused (.notFound .track 999), Store.oneTrack) := by
    change @Eq (Answer × Store) _ _
    decide +kernel
  obtain ⟨hsame, hids⟩ := Store.reachable_oneTrack.keeps_of_failure.1 _ _ _ hrun rfl
  exact ⟨_, hrun, hsame, hids.trans rfl⟩

end Fonoteca
