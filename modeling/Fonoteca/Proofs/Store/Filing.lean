import Fonoteca.Proofs.Store.Failure
import Fonoteca.Proofs.Store.Halves
import Fonoteca.Proofs.Store.Trimmed

/-!
# Tracks are filed under their folders

A track is put on the album that its path and the name of its album call for, and its path is kept
from then on.  A performer is looked up by the name as it is and added by the trimmed name, which
comes to the same as long as all names are trimmed.

* `Tables.Filed` says that each track is on an album of the folder of its file, and that all names
  of performers are trimmed.
* `Tables.KeepsFiled` says that sound tables stay so.  Ingesting a track does that
  (**`Tables.Sound.filed_ingest`**), and so does writing one back with the path that it has
  (**`Tables.Sound.filed_restore`**).
* `Request.isOrderly` are the requests that write tracks and performers in no other way, and
  **`stepwise_filed`** says that they keep the tracks filed.
-/

set_option autoImplicit false

namespace Fonoteca

/-- The folder of a file depends on nothing but its path. -/
theorem Track.albumDir_eq (t : Track) : t.albumDir = albumDir { path := t.path } :=
  rfl

/-- A row that reads as a track gives it its number and its path. -/
theorem JoinedRow.of_toTrack {row : JoinedRow} {track : Track} (h : row.toTrack = .ok track) :
    track.id = row.id ∧ track.path = row.path := by
  obtain ⟨_, -, h⟩ := bind_eq_ok h
  obtain ⟨_, -, h⟩ := bind_eq_ok h
  cases h
  exact ⟨rfl, rfl⟩

namespace Tables

/-- Each track is on an album of the folder of its file, and all names of performers are trimmed. -/
structure Filed (t : Tables) : Prop where
  folders : ∀ r ∈ t.tracks,
    ∃ a, t.album? r.album = some a ∧ a.directory = Track.albumDir { path := r.path }
  names : ∀ p ∈ t.performers, Text.trim p.name = p.name

/-- Sound tables with filed tracks become such tables. -/
def KeepsFiled (t u : Tables) : Prop :=
  Sound t ∧ Filed t → Sound u ∧ Filed u

theorem filed_empty : Filed {} :=
  ⟨by simp, by simp⟩

theorem KeepsFiled.of_reflTransGen {t u : Tables} (h : Relation.ReflTransGen KeepsFiled t u) :
    KeepsFiled t u := by
  induction h with
  | refl => exact id
  | tail _ hlast ih => exact hlast ∘ ih

variable {t u : Tables}

/-! ## What leaves the tracks alone -/

/-- Tables that are extended by names and albums only stay filed. -/
theorem Filed.extend (h : Filed t) (hext : Extends t u) (htracks : u.tracks = t.tracks) :
    Filed u where
  folders r hr := by
    obtain ⟨a, ha, hfolder⟩ := h.folders r (htracks ▸ hr)
    exact ⟨a, hext.keepsNames.album? ha, hfolder⟩
  names := hext.trimmed h.names

/-- Additions that put in no track keep the tracks filed. -/
theorem Additions.keepsFiled (h : Additions t u) (htracks : u.tracks = t.tracks) :
    KeepsFiled t u := by
  rintro ⟨hsound, hfiled⟩
  exact ⟨.additions h hsound, hfiled.extend (Additions.extends h) htracks⟩

/-- What is about people only keeps the tracks filed. -/
theorem SameBut.keepsFiled (h : SameBut withoutPeople t u) (hsteps : Steps t u) :
    KeepsFiled t u := by
  rintro ⟨hsound, hfiled⟩
  have hsame : u.withoutPeople = t.withoutPeople := h
  have hnames : u.names = t.names := by rw [← names_withoutPeople, hsame, names_withoutPeople]
  have halbums : u.albums = t.albums := congrArg (fun t => t.albums) hsame
  have htracks : u.tracks = t.tracks := congrArg (fun t => t.tracks) hsame
  exact ⟨.steps hsteps hsound, hfiled.extend (.of_same hnames halbums htracks) htracks⟩

/-! ## Ingesting a track -/

namespace Sound

/-- An album that is found by its folder and its name lies in this folder. -/
theorem album?_directory_of_named (h : Sound t) {directory name : String} {id : Int}
    (hid : t.albumNamed? directory name = some id) :
    ∃ a, t.album? id = some a ∧ a.directory = directory := by
  obtain ⟨a, ha, rfl⟩ := Option.map_eq_some_iff.1 hid
  have hnamed : a.directory = directory ∧ a.name = name := by simpa using List.find?_some ha
  exact ⟨a, h.album?_eq_some_iff.2 ⟨List.mem_of_find?_eq_some ha, rfl⟩, hnamed.1⟩

/-- **A track is put in under its folder.** -/
theorem filed_ingest (h : Sound t) (hfiled : Filed t) (track : Track) :
    Filed (t.ingest track).2 := by
  obtain ⟨performer, album, u, hadditions, hu, htracks, -, hnamed, hingest⟩ := h.resolved track
  have hfiled' : Filed u := hfiled.extend (Additions.extends hadditions) htracks
  obtain ⟨a, ha, hfolder⟩ := hu.album?_directory_of_named hnamed
  rw [hingest, place]
  split
  · exact hfiled'
  · refine ⟨fun r hr => ?_, hfiled'.names⟩
    rcases List.mem_append.1 hr with hold | hnew
    · exact hfiled'.folders r hold
    · rw [List.mem_singleton.1 hnew]
      exact ⟨a, ha, hfolder.trans track.albumDir_eq⟩

/-! ## Writing a track back -/

/-- A track that is read has the number that it was asked for by, and the path of its row. -/
theorem of_readTrack (h : Sound t) {id : Int} {track : Track}
    (hread : t.readTrack id = .ok (some track)) :
    track.id = id ∧ ∀ r ∈ t.tracks, r.id = id → r.path = track.path := by
  rw [readTrack] at hread
  split at hread
  · next row hrow =>
    obtain ⟨q, hq, hshows⟩ := h.mem_joined_iff.1 (List.mem_of_find?_eq_some hrow)
    have hid : row.id = id := by simpa using List.find?_some hrow
    have htrack : row.toTrack = .ok track := by
      cases htrack : row.toTrack with
      | error e => rw [htrack] at hread; cases hread
      | ok found => rw [htrack] at hread; cases hread; rfl
    obtain ⟨hrowid, hrowpath⟩ := JoinedRow.of_toTrack htrack
    refine ⟨hrowid.trans hid, fun r hr hrid => ?_⟩
    have hsame : r = q := by
      refine List.inj_on_of_nodup_map h.trackIds.nodup hr hq ?_
      rw [hrid, ← hshows.id, hid]
    rw [hsame, hrowpath, hshows.path]
  · cases hread

/-- **A track that is written back stays filed** if its path is that of its row. -/
theorem filed_restore (h : Sound t) (hfiled : Filed t) {track : Track}
    (hpath : ∀ r ∈ t.tracks, r.id = track.id → r.path = track.path) :
    Filed (t.restore track) := by
  have hartist := t.additions_performerFor track.artist
  have htracks := t.tracks_performerFor track.artist
  rw [restore]
  generalize t.performerFor track.artist = artist at hartist htracks ⊢
  obtain ⟨performer, t₁⟩ := artist
  have halbum := t₁.additions_albumFor track.albumDir track.album track.year
  have htracks' := t₁.tracks_albumFor track.albumDir track.album track.year
  have hnamed := t₁.albumNamed?_albumFor track.albumDir track.album track.year
  generalize t₁.albumFor track.albumDir track.album track.year = filed at halbum htracks' hnamed ⊢
  obtain ⟨album, t₂⟩ := filed
  dsimp only at *
  have hadditions : Additions t t₂ := hartist.trans halbum
  have hsame : t₂.tracks = t.tracks := htracks'.trans htracks
  have hfiled' : Filed t₂ := hfiled.extend (Additions.extends hadditions) hsame
  obtain ⟨a, ha, hfolder⟩ := (additions hadditions h).album?_directory_of_named hnamed
  refine ⟨fun r hr => ?_, hfiled'.names⟩
  obtain ⟨q, hq, rfl⟩ := List.mem_map.1 hr
  split
  · next hid =>
    refine ⟨a, ha, ?_⟩
    rw [hfolder, track.albumDir_eq, ← hpath q (hsame ▸ hq) hid]
  · exact hfiled'.folders q hq

end Sound
end Tables

/-! ## Requests -/

open Tables (KeepsFiled SameBut)

/-- A change that is about people only. -/
theorem stepwise_keepsFiled {α : Type} {update : Tables → α × Tables}
    (hsteps : ∀ t, Tables.Step t (update t).2)
    (hsame : ∀ t, SameBut Tables.withoutPeople t (update t).2) :
    Stepwise KeepsFiled (Store.change fun t => .ok (update t)).run :=
  stepwise_change_ok fun t => .single ((hsame t).keepsFiled (hsteps t).steps)

theorem filed_setKind (id : Int) (kind : PerformerKind) :
    Stepwise KeepsFiled (Store.setKind id kind).run :=
  stepwise_keepsFiled (fun _ => .kind id kind) fun t => t.sameBut_setKind id kind

theorem filed_addPerson (p : Person) : Stepwise KeepsFiled (Store.addPerson p).run :=
  stepwise_keepsFiled (fun _ => .person p) fun _ => rfl

theorem filed_updatePerson (p : Person) : Stepwise KeepsFiled (Store.updatePerson p).run :=
  stepwise_keepsFiled (fun _ => .rewritePerson p) fun _ => rfl

theorem filed_addGroup (g : Group) : Stepwise KeepsFiled (Store.addGroup g).run :=
  stepwise_keepsFiled (fun _ => .group g) fun _ => rfl

theorem filed_updateGroup (g : Group) : Stepwise KeepsFiled (Store.updateGroup g).run :=
  stepwise_keepsFiled (fun _ => .rewriteGroup g) fun _ => rfl

theorem filed_join (person group : Int) : Stepwise KeepsFiled (Store.join person group).run :=
  .join fun _ _ hu => .single ((Tables.sameBut_addMembership hu).keepsFiled
    (Tables.Additions.steps (Tables.additions_of_addMembership hu)))

theorem filed_resolvePerformer (name : String) :
    Stepwise KeepsFiled (Store.resolvePerformer name).run :=
  .resolvePerformer fun t => .single
    (Tables.Additions.keepsFiled (t.additions_performerFor name) (t.tracks_performerFor name))

theorem filed_resolveAlbum (directory name : String) (year : Int32) :
    Stepwise KeepsFiled (Store.resolveAlbum directory name year).run :=
  .resolveAlbum fun t => .single (Tables.Additions.keepsFiled
    (t.additions_albumFor directory name year) (t.tracks_albumFor directory name year))

/-- The album that a track is put on is not known before it is resolved, so the parts of an
ingestion do not say what the whole does. -/
theorem filed_ingest (track : Track) : Stepwise KeepsFiled (ingest track).run := by
  intro s
  obtain ⟨u, hu, hread, hs⟩ := stepwise_ingest track s
  refine ⟨u, .single ?_, hread, hs⟩
  rintro ⟨hsound, hfiled⟩
  refine ⟨.additions hu hsound, ?_⟩
  by_cases hreadOnly : s.readOnly = true
  · rw [hread hreadOnly]
    exact hfiled
  · have htables : u = ((ingest track).run.run s).2.tables := (congrArg Store.tables hs).symm
    by_cases hopen : s.isOpen = true
    · rw [htables, show (ingest track).run.run s = _ from
        Store.run_ingest hsound hopen (by simpa using hreadOnly) track]
      exact hsound.filed_ingest hfiled track
    · rw [htables, show (ingest track).run.run s = _ from
        StoreM.run_bind_error (Store.run_ask_closed (by simpa using hopen) _) _]
      exact hfiled

/-- Writing a track back does nothing, or all that it is there for. -/
theorem store_updateTrack {s : Store} (h : Tables.Sound s.tables) (track : Track) :
    ((Store.updateTrack track).run.run s).2 = s ∨
      ((Store.updateTrack track).run.run s).2 = { s with tables := s.tables.restore track } := by
  by_cases hopen : s.isOpen = true
  · have hask : (Store.track? track.id).run s = (Store.classify (s.tables.readTrack track.id), s) :=
      Store.run_ask hopen _
    by_cases hread : s.readOnly = true
    · obtain ⟨u, -, hkept, hs⟩ := stepwise_updateTrack track s
      left
      rw [show ((Store.updateTrack track).run.run s).2 = _ from hs, hkept hread]
    · cases hfound : Store.classify (s.tables.readTrack track.id) with
      | error e =>
        rw [hfound] at hask
        exact .inl (congrArg Prod.snd (StoreM.run_bind_error hask _))
      | ok found =>
        rw [hfound] at hask
        cases found with
        | none => exact .inl (congrArg Prod.snd (StoreM.run_bind_ok hask _))
        | some old =>
          have htrack := h.track?_of_readTrack (Store.classify_eq_ok_iff.1 hfound)
          have hrestore : (Store.updateTrack track).run s = (Store.restoreTrack track).run s :=
            StoreM.run_bind_ok hask _
          have hrun := Store.run_restoreTrack hopen (by simpa using hread) htrack
          exact .inr (congrArg Prod.snd (hrestore.trans hrun))
  · exact .inl (congrArg Prod.snd
      (StoreM.run_bind_error (Store.run_ask_closed (by simpa using hopen) _) _))

/-- A track that is written back with the path of its row stays filed. -/
theorem filed_updateTrack {s : Store} {track : Track}
    (hpath : Tables.Sound s.tables → ∀ r ∈ s.tables.tracks, r.id = track.id → r.path = track.path) :
    ∃ u, KeepsFiled s.tables u ∧
      ((Store.updateTrack track).run.run s).2 = { s with tables := u } := by
  obtain ⟨u, hu, -, hs⟩ := stepwise_updateTrack track s
  refine ⟨u, ?_, hs⟩
  rintro ⟨hsound, hfiled⟩
  refine ⟨.steps hu hsound, ?_⟩
  have htables : u = ((Store.updateTrack track).run.run s).2.tables :=
    (congrArg Store.tables hs).symm
  rcases store_updateTrack hsound track with hsame | hrestored
  · rw [htables, hsame]
    exact hfiled
  · rw [htables, hrestored]
    exact hsound.filed_restore hfiled (hpath hsound)

/-- Whether a request writes tracks and performers only by ingesting and by resolving names. -/
def Request.isOrderly : Request → Bool
  | .insertTrack _ _ _ => false
  | .updateTrack _ => false
  | .addPerformerRow _ _ => false
  | .addAlbumRow _ _ _ => false
  | .addTrackRow _ _ _ _ _ _ _ => false
  | _ => true

/-- **Such a request keeps the tracks filed.** -/
theorem stepwise_filed {request : Request} (h : request.isOrderly = true)
    (hclose : request ≠ .close) (hreopen : request ≠ .reopen) :
    Stepwise KeepsFiled request.run := by
  cases request with
  | resolvePerformer name => exact (filed_resolvePerformer name).answer _
  | resolveAlbum directory name year => exact (filed_resolveAlbum directory name year).answer _
  | populate tracks patience =>
    exact composes_stepwise.answerPopulate filed_ingest patience tracks
  | scan reader paths patience =>
    exact composes_stepwise.answerScan filed_ingest reader patience paths
  | search plan text => exact composes_stepwise.answerSearch (stepwise_ask _)
  | setKind id kind => exact (filed_setKind id kind).answer _
  | addPerson person => exact (filed_addPerson person).answer _
  | updatePerson person => exact (filed_updatePerson person).answer _
  | addGroup group => exact (filed_addGroup group).answer _
  | updateGroup group => exact (filed_updateGroup group).answer _
  | join person group => exact (filed_join person group).answer _
  | close => exact absurd rfl hclose
  | reopen => exact absurd rfl hreopen
  | insertTrack | updateTrack | addPerformerRow | addAlbumRow | addTrackRow => cases h
  | _ => exact (stepwise_ask _).answer _

end Fonoteca
