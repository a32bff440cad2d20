import Fonoteca.Proofs.Store.Insertion
import Fonoteca.Proofs.Store.Running
import Fonoteca.Store.Request

/-!
# Ingestions always come to an end

In sound tables no insertion is refused, and what a name is resolved to is there when the track is
inserted.  So each request of an ingestion comes to a function on the tables.

* `Tables.ingest` is what putting in one track does to the tables, `Tables.ingestAll` what a list of
  tracks does.  Both only add (`Tables.Sound.additions_ingestAll`).
* `Store.run_ingest` and `Store.run_populate` : an open store that may be written does just that.
* **`Store.Reachable.completes`** : resolving names and putting in tracks succeeds in every such
  store, and a store that may only be read refuses with nothing but that.
-/

set_option autoImplicit false

namespace Fonoteca

open Tables (Sound Additions Extends)

namespace Tables

/-! ## One track -/

/-- The number of the performer of a name, which is looked up as it is before it is resolved. -/
def findPerformer (t : Tables) (name : String) : Int × Tables :=
  match t.performerNamed? name with
  | some id => (id, t)
  | none => t.performerFor name

/-- Puts in a track, with its performer and its album. -/
def ingest (t : Tables) (track : Track) : Insertion × Tables :=
  let artist := t.findPerformer track.artist
  let album := artist.2.albumFor track.albumDir track.album track.year
  album.2.place track artist.1 album.1

/-- Puts in tracks in order. -/
def ingestAll (t : Tables) (tracks : List Track) : Tables :=
  tracks.foldl (fun t track => (t.ingest track).2) t

/-- A performer who is known is not resolved. -/
theorem findPerformer_of_known {t : Tables} {name : String} {id : Int}
    (h : t.knownPerformer? name = some id) : t.findPerformer name = (id, t) := by
  rw [knownPerformer?] at h
  rw [findPerformer]
  cases hname : t.performerNamed? name with
  | some found =>
    rw [hname, Option.some_or] at h
    rw [Option.some.inj h]
  | none =>
    rw [hname, Option.none_or] at h
    simp only [performerFor, h]

/-- A performer who was looked up and resolved is known. -/
theorem knownPerformer?_findPerformer (t : Tables) (name : String) :
    (t.findPerformer name).2.knownPerformer? name = some (t.findPerformer name).1 := by
  have hresolved := t.performerNamed?_performerFor name
  rw [findPerformer, knownPerformer?]
  cases hname : t.performerNamed? name with
  | some found => simp [hname]
  | none =>
    by_cases htrim : Text.trim name = name
    · rw [htrim] at hresolved
      simp [hresolved]
    · have hextends : Extends t (t.performerFor name).2 :=
        Additions.extends (t.additions_performerFor name)
      simp [hextends.performerNamed?_none htrim hname, hresolved]

theorem additions_findPerformer (t : Tables) (name : String) :
    Additions t (t.findPerformer name).2 := by
  rw [findPerformer]
  split
  · exact .refl
  · exact additions_performerFor t name

@[simp] theorem tracks_findPerformer (t : Tables) (name : String) :
    (t.findPerformer name).2.tracks = t.tracks := by
  rw [findPerformer]
  split <;> simp

/-- Looking an album up by its name before it is resolved changes nothing. -/
theorem albumFor_eq (t : Tables) (directory name : String) (year : Int32) :
    (match t.albumNamed? directory name with
    | some id => (id, t)
    | none => t.albumFor directory name year) = t.albumFor directory name year := by
  rw [albumFor]
  cases t.albumNamed? directory name <;> rfl

namespace Sound

variable {t : Tables}

/-- **What a track is put in with**: after additions that give it a performer and an album, who are
found in the tables from then on. -/
theorem resolved (h : Sound t) (track : Track) :
    ∃ performer album u, Additions t u ∧ Sound u ∧ u.tracks = t.tracks ∧
      u.knownPerformer? track.artist = some performer ∧
      u.albumNamed? track.albumDir track.album = some album ∧
      t.ingest track = u.place track performer album := by
  have hartist := t.additions_findPerformer track.artist
  have hknown := t.knownPerformer?_findPerformer track.artist
  have htracks := t.tracks_findPerformer track.artist
  rw [Tables.ingest]
  generalize t.findPerformer track.artist = artist at hartist hknown htracks ⊢
  obtain ⟨performer, t₁⟩ := artist
  have hfiled := t₁.additions_albumFor track.albumDir track.album track.year
  have hnamed := t₁.albumNamed?_albumFor track.albumDir track.album track.year
  have htracks' := t₁.tracks_albumFor track.albumDir track.album track.year
  generalize t₁.albumFor track.albumDir track.album track.year = filed at hfiled hnamed htracks' ⊢
  obtain ⟨album, t₂⟩ := filed
  have hadditions : Additions t t₂ := hartist.trans hfiled
  exact ⟨performer, album, t₂, hadditions, .additions hadditions h,
    htracks'.trans htracks, (Additions.extends hfiled).knownPerformer? hknown, hnamed, rfl⟩

/-- **Putting in a track only adds** to the tables. -/
theorem additions_ingest (h : Sound t) (track : Track) : Additions t (t.ingest track).2 := by
  obtain ⟨performer, album, u, hadditions, hu, -, hknown, hnamed, hingest⟩ := h.resolved track
  rw [hingest]
  exact hadditions.trans
    (hu.additions_place track (performer?_of_known hknown) (album?_of_albumNamed? hnamed))

/-- So does putting in a list of them. -/
theorem additions_ingestAll (h : Sound t) (tracks : List Track) :
    Additions t (t.ingestAll tracks) := by
  induction tracks generalizing t with
  | nil => exact .refl
  | cons track tracks ih =>
    have hfirst := h.additions_ingest track
    exact hfirst.trans (ih (.additions hfirst h))

theorem performer_pos (h : Sound t) {id : Int} (hid : (t.performer? id).isSome) : 0 < id :=
  h.performerIds.positive id (isSome_performer?_iff.1 hid)

theorem album_pos (h : Sound t) {id : Int} (hid : (t.album? id).isSome) : 0 < id :=
  h.albumIds.positive id (isSome_album?_iff.1 hid)

end Sound
end Tables

/-! ## A list of tracks -/

/-- The outcome of an insertion for a track: the track with its identity, if it is new. -/
def Insertion.newTrack : Insertion → Track → Option Track
  | .inserted id, track => some (track.assignId id).2
  | .alreadyPresent, _ => none

/-- The report with one more track counted, as new or not. -/
def IngestionReport.count (r : IngestionReport) : Option Track → IngestionReport
  | some _ => { r with inserted := r.inserted + 1 }
  | none => { r with skipped := r.skipped + 1 }

/-- The patience that is left after a track; only a new one costs some. -/
def Patience.after (p : Patience) : Option Track → Patience
  | some _ => p.spend
  | none => p

/-- The tracks that a consumer got, with the first one in front if it is new. -/
def Patience.hand (p : Patience) : Option Track → List Track → List Track
  | some new, later => p.receive new later
  | none, later => later

/-- A list of tracks goes in track by track. -/
theorem run_populate_cons (patience : Patience) (track : Track) (tracks : List Track) (s : Store) :
    (populate patience (track :: tracks)).run s =
      match (ingest track).run.run s with
      | (.error e, s₁) => (([], .error e), s₁)
      | (.ok new, s₁) =>
        let ((later, result), s₂) := (populate (patience.after new) tracks).run s₁
        ((patience.hand new later, result.map (·.count new)), s₂) := by
  rw [populate, StateT.run_bind]
  rcases (ingest track).run.run s with ⟨e | _ | new, s₁⟩ <;> rfl

/-- A list of tracks goes on after its first one. -/
theorem run_populate_cons_ok {patience : Patience} {track : Track} {tracks later : List Track}
    {new : Option Track} {result : Except StoreError IngestionReport} {s s₁ s₂ : Store}
    (hfirst : (ingest track).run s = (.ok new, s₁))
    (hrest : (populate (patience.after new) tracks).run s₁ = ((later, result), s₂)) :
    (populate patience (track :: tracks)).run s =
      ((patience.hand new later, result.map (·.count new)), s₂) := by
  rw [run_populate_cons, show (ingest track).run.run s = _ from hfirst]
  dsimp only
  rw [hrest]

/-- A list of tracks ends at the first one that is refused. -/
theorem run_populate_cons_error {track : Track} {e : StoreError} {s s₁ : Store}
    (hfirst : (ingest track).run s = (.error e, s₁)) (patience : Patience) (tracks : List Track) :
    (populate patience (track :: tracks)).run s = (([], .error e), s₁) := by
  rw [run_populate_cons, show (ingest track).run.run s = _ from hfirst]

namespace Store

variable {s : Store}

/-- An insertion with numbers that can be those of a performer and an album asks the tables. -/
theorem insertTrack_of_pos (track : Track) {performer album : Int} (hp : 0 < performer)
    (ha : 0 < album) :
    insertTrack track performer album =
      change fun t => classify (t.insertTrack track performer album) := by
  rw [insertTrack, if_neg (by omega), if_neg (by omega)]

/-! ## In a store that may be written -/

theorem run_resolvePerformer (hopen : s.isOpen = true) (hwrite : s.readOnly = false)
    (name : String) :
    (resolvePerformer name).run s =
      (.ok (s.tables.performerFor name).1,
        { s with tables := (s.tables.performerFor name).2 }) :=
  run_change_ok hopen hwrite (by rw [Tables.resolvePerformer_eq]; rfl)

theorem run_resolveAlbum (hopen : s.isOpen = true) (hwrite : s.readOnly = false)
    (directory name : String) (year : Int32) :
    (resolveAlbum directory name year).run s =
      (.ok (s.tables.albumFor directory name year).1,
        { s with tables := (s.tables.albumFor directory name year).2 }) :=
  run_change_ok hopen hwrite (by rw [Tables.resolveAlbum_eq]; rfl)

theorem run_insertTrack (h : Sound s.tables) (hopen : s.isOpen = true)
    (hwrite : s.readOnly = false) (track : Track) {performer album : Int}
    (hperformer : (s.tables.performer? performer).isSome)
    (halbum : (s.tables.album? album).isSome) :
    (insertTrack track performer album).run s =
      (.ok (s.tables.place track performer album).1,
        { s with tables := (s.tables.place track performer album).2 }) := by
  rw [insertTrack_of_pos track (h.performer_pos hperformer) (h.album_pos halbum)]
  exact run_change_ok hopen hwrite (by rw [h.insertTrack_eq track hperformer halbum]; rfl)

theorem run_performerNamed? (hopen : s.isOpen = true) (name : String) :
    (performerNamed? name).run s = (.ok (s.tables.performerNamed? name), s) :=
  run_ask hopen _

theorem run_albumNamed? (hopen : s.isOpen = true) (directory name : String) :
    (albumNamed? directory name).run s = (.ok (s.tables.albumNamed? directory name), s) :=
  run_ask hopen _

/-- A number is known before or resolved, and then a request goes on with it. -/
theorem run_found {β : Type} (hopen : s.isOpen = true) (hwrite : s.readOnly = false)
    {resolve : Tables → Except Fault (Int × Tables)} {outcome : Tables → Int × Tables}
    (hresolve : ∀ t, resolve t = .ok (outcome t)) {found : Option Int} {numbered : Int × Tables}
    (next : Int → StoreM β) :
    (match found with
      | some id => (id, s.tables)
      | none => outcome s.tables) = numbered →
    (match found with
      | some id => pure id >>= next
      | none => change (fun t => classify (resolve t)) >>= next : StoreM β).run s =
      (next numbered.1).run { s with tables := numbered.2 } := by
  rintro rfl
  cases found with
  | some id => rfl
  | none => exact StoreM.run_bind_ok (run_change_ok hopen hwrite (by rw [hresolve]; rfl)) next

/-- **Putting in one track** succeeds, and does to the tables what it comes to. -/
theorem run_ingest (h : Sound s.tables) (hopen : s.isOpen = true) (hwrite : s.readOnly = false)
    (track : Track) :
    (ingest track).run s =
      (.ok ((s.tables.ingest track).1.newTrack track),
        { s with tables := (s.tables.ingest track).2 }) := by
  have hperformer := Tables.performer?_of_known
    (s.tables.knownPerformer?_findPerformer track.artist)
  have h₁ : Sound (s.tables.findPerformer track.artist).2 :=
    .additions (s.tables.additions_findPerformer _) h
  rw [Fonoteca.ingest, Tables.ingest]
  refine (StoreM.run_bind_ok (run_performerNamed? hopen _) _).trans ?_
  refine (run_found hopen hwrite (fun t => t.resolvePerformer_eq track.artist) _
    (show _ = s.tables.findPerformer track.artist from rfl)).trans ?_
  -- from here on the performer is known by number
  generalize s.tables.findPerformer track.artist = artist at hperformer h₁ ⊢
  obtain ⟨performer, t₁⟩ := artist
  refine (StoreM.run_bind_ok (run_albumNamed? (s := { s with tables := t₁ }) hopen _ _) _).trans ?_
  refine (run_found (s := { s with tables := t₁ }) hopen hwrite
    (fun t => t.resolveAlbum_eq track.albumDir track.album track.year) _
    (t₁.albumFor_eq track.albumDir track.album track.year)).trans ?_
  have halbum := t₁.album?_albumFor track.albumDir track.album track.year
  have h₂ : Sound (t₁.albumFor track.albumDir track.album track.year).2 :=
    .additions (t₁.additions_albumFor _ _ _) h₁
  rw [Tables.performer?, ← t₁.performers_albumFor track.albumDir track.album track.year,
    ← Tables.performer?] at hperformer
  generalize t₁.albumFor track.albumDir track.album track.year = filed at hperformer halbum h₂ ⊢
  obtain ⟨album, t₂⟩ := filed
  refine (StoreM.run_bind_ok (run_insertTrack (s := { s with tables := t₂ }) h₂ hopen hwrite track
    hperformer halbum) _).trans ?_
  cases (t₂.place track performer album).1 <;> rfl

/-- **Putting in a list of tracks** succeeds, whatever the consumer does, and does to the tables
what it comes to. -/
theorem run_populate (h : Sound s.tables) (hopen : s.isOpen = true) (hwrite : s.readOnly = false)
    (patience : Patience) (tracks : List Track) :
    ∃ accepted report, (populate patience tracks).run s =
      ((accepted, .ok report), { s with tables := s.tables.ingestAll tracks }) := by
  induction tracks generalizing s patience with
  | nil => exact ⟨[], {}, rfl⟩
  | cons track tracks ih =>
    have hfirst := run_ingest h hopen hwrite track
    obtain ⟨later, rest, hrest⟩ := ih (s := { s with tables := (s.tables.ingest track).2 })
      (.additions (h.additions_ingest track) h) hopen hwrite
      (patience.after ((s.tables.ingest track).1.newTrack track))
    exact ⟨_, _, run_populate_cons_ok hfirst hrest⟩

/-! ## In a store that may only be read -/

/-- Tables that may only be read do not take a track. -/
theorem run_ingest_readOnly (h : Sound s.tables) (hopen : s.isOpen = true)
    (hread : s.readOnly = true) (track : Track) :
    (ingest track).run s = (.error (.query .readOnly), s) := by
  rw [Fonoteca.ingest]
  refine (StoreM.run_bind_ok (run_performerNamed? hopen _) _).trans ?_
  cases hp : s.tables.performerNamed? track.artist with
  | none => exact StoreM.run_bind_error (run_change_readOnly hopen hread _) _
  | some performer =>
    refine (StoreM.run_bind_ok (run_albumNamed? hopen _ _) _).trans ?_
    cases ha : s.tables.albumNamed? track.albumDir track.album with
    | none => exact StoreM.run_bind_error (run_change_readOnly hopen hread _) _
    | some album =>
      have hins : (insertTrack track performer album).run s = (.error (.query .readOnly), s) := by
        rw [insertTrack_of_pos track (h.performer_pos (Tables.performer?_of_performerNamed? hp))
          (h.album_pos (Tables.album?_of_albumNamed? ha))]
        exact run_change_readOnly hopen hread _
      exact StoreM.run_bind_error hins _

theorem run_populate_readOnly (h : Sound s.tables) (hopen : s.isOpen = true)
    (hread : s.readOnly = true) (patience : Patience) (track : Track) (tracks : List Track) :
    (populate patience (track :: tracks)).run s = (([], .error (.query .readOnly)), s) :=
  run_populate_cons_error (run_ingest_readOnly h hopen hread track) patience tracks

/-! ## In a closed store -/

/-- A closed store takes no track. -/
theorem run_populate_closed (hclosed : s.isOpen = false) (patience : Patience) (track : Track)
    (tracks : List Track) :
    (populate patience (track :: tracks)).run s =
      (([], .error (.connectionLost .closed)), s) :=
  run_populate_cons_error (StoreM.run_bind_error (run_ask_closed hclosed _) _) patience tracks

end Store

/-- **Resolving names and putting in tracks completes.**  In every open store that may be written
each performer's name and each album's name in its folder is resolved, and each list of tracks is
put in, whatever the tables hold and whatever the consumer does.  A store that may only be read
refuses all of this, for this reason and no other, and stays as it is. -/
theorem Store.Reachable.completes {s : Store} (hs : s.Reachable) (hopen : s.isOpen = true) :
    (s.readOnly = false →
      (∀ name, ∃ id s', (resolvePerformer name).run s = (.ok id, s')) ∧
      (∀ directory name year, ∃ id s',
        (resolveAlbum directory name year).run s = (.ok id, s')) ∧
      ∀ patience tracks, ∃ accepted report s',
        (populate patience tracks).run s = ((accepted, .ok report), s')) ∧
    (s.readOnly = true →
      (∀ name, (resolvePerformer name).run s = (.error (.query .readOnly), s)) ∧
      (∀ directory name year,
        (resolveAlbum directory name year).run s = (.error (.query .readOnly), s)) ∧
      (∀ patience, (populate patience []).run s = (([], .ok {}), s)) ∧
      ∀ patience track tracks,
        (populate patience (track :: tracks)).run s = (([], .error (.query .readOnly)), s)) := by
  refine ⟨fun hwrite => ⟨fun name => ?_, fun directory name year => ?_, fun patience tracks => ?_⟩,
    fun hread => ⟨fun name => ?_, fun directory name year => ?_, fun patience => rfl,
      fun patience track tracks => ?_⟩⟩
  · exact ⟨_, _, run_resolvePerformer hopen hwrite name⟩
  · exact ⟨_, _, run_resolveAlbum hopen hwrite directory name year⟩
  · obtain ⟨accepted, report, hrun⟩ := run_populate hs.sound hopen hwrite patience tracks
    exact ⟨accepted, report, _, hrun⟩
  · exact run_change_readOnly hopen hread _
  · exact run_change_readOnly hopen hread _
  · exact run_populate_readOnly hs.sound hopen hread patience track tracks

/-- The library of one track takes a performer's name with blanks around it and a track twice, and
nothing once it is opened for reading only. -/
theorem Store.completes_oneTrack :
    (∃ id s', (resolvePerformer " Iris ").run oneTrack = (.ok id, s')) ∧
    (∃ accepted report s', (populate (some 0) [lostLetter, { lostLetter with path := "b.mp3" }]).run
      oneTrack = ((accepted, .ok report), s')) ∧
    (resolvePerformer "Bo").run { oneTrack with readOnly := true } =
      (.error (.query .readOnly), { oneTrack with readOnly := true }) := by
  obtain ⟨hperformer, -, htracks⟩ := (reachable_oneTrack.completes rfl).1 rfl
  have hread := ((reachable_oneTrack.opened true rfl).completes rfl).2 rfl
  exact ⟨hperformer _, htracks _ _, hread.1 _⟩

/-- **Not every open store takes a track**: one that was opened for reading only refuses it, even if
it has the track already. -/
theorem Store.refuses_readOnly :
    ∃ s : Store, s.Reachable ∧ s.isOpen = true ∧
      (resolvePerformer "Bo").run s = (.error (.query .readOnly), s) ∧
      (populate none [lostLetter]).run s = (([], .error (.query .readOnly)), s) := by
  have hs := reachable_oneTrack.opened true rfl
  exact ⟨_, hs, rfl, run_change_readOnly rfl rfl _, run_populate_readOnly hs.sound rfl rfl _ _ _⟩

end Fonoteca
