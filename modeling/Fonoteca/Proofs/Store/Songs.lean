import Fonoteca.Proofs.Store.Insertion

/-!
# Songs

Two tracks are of the same song if the names of their performers and of their albums, their genres
and their titles agree, wherever their files are.  No constraint of a table is about songs: they
spread over three tables, and it is only the check before an insertion that looks for them.

* `Tables.songs` are the songs of the tracks, `Tables.paths` their paths.
* **`Tables.Sound.any_blocks_iff`** : a row is in the way of a track if and only if the tables have
  its path or its song.
* `Tables.Guarded` are the steps that put in a track only if no row is in its way.  They never make
  a song occur twice (`Tables.Guarded.songs_nodup`).
* **`Store.songs_distinct`** : a library whose tracks all came past this check has no song twice.
-/

set_option autoImplicit false

namespace Fonoteca

/-- What two tracks of the same song have in common. -/
structure Song where
  artist : String
  album : String
  genre : String
  title : String
  deriving DecidableEq, Repr

/-- The song of a joined row. -/
def JoinedRow.song (r : JoinedRow) : Song :=
  ⟨r.artist, r.album, r.genre, r.title⟩

namespace Tables

/-- The songs of the tracks, in the order of the tracks. -/
def songs (t : Tables) : List Song :=
  t.joined.map JoinedRow.song

/-- The paths of the tracks, in the order of the tracks. -/
def paths (t : Tables) : List String :=
  t.tracks.map (·.path)

@[simp] theorem songs_empty : ({} : Tables).songs = [] := by
  simp [songs, joined]

namespace Sound

variable {t : Tables}

/-- The names in a joined row are found by the numbers in the row of the track. -/
theorem names_of_shows (h : Sound t) {r : TrackRow} {row : JoinedRow} (hrow : t.Shows r row) :
    (t.performer? r.performer).map (·.name) = some row.artist ∧
      (t.album? r.album).map (·.name) = some row.album := by
  obtain ⟨p, a, hp, ha, rfl⟩ := join?_eq_some_iff.1 (h.join?_eq_some_iff_shows.2 hrow)
  exact ⟨congrArg (Option.map (·.name)) hp, congrArg (Option.map (·.name)) ha⟩

/-- Where no song occurs twice, two tracks of the same song are the same. -/
theorem eq_of_same_song (h : Sound t) (hnodup : t.songs.Nodup) {r q : TrackRow}
    (hr : r ∈ t.tracks) (hq : q ∈ t.tracks)
    (hartist : (t.performer? r.performer).map (·.name) = (t.performer? q.performer).map (·.name))
    (halbum : (t.album? r.album).map (·.name) = (t.album? q.album).map (·.name))
    (hgenre : r.genre = q.genre) (htitle : r.title = q.title) : r = q := by
  obtain ⟨row, hrow⟩ := h.exists_shows hr
  obtain ⟨row', hrow'⟩ := h.exists_shows hq
  obtain ⟨hartist₁, halbum₁⟩ := h.names_of_shows hrow
  obtain ⟨hartist₂, halbum₂⟩ := h.names_of_shows hrow'
  rw [hartist₁, hartist₂, Option.some.injEq] at hartist
  rw [halbum₁, halbum₂, Option.some.injEq] at halbum
  have hsong : row.song = row'.song := by
    rw [JoinedRow.song, JoinedRow.song, hartist, halbum, hrow.genre, hrow'.genre, hgenre,
      hrow.title, hrow'.title, htitle]
  have hsame : row = row' := List.inj_on_of_nodup_map hnodup (h.mem_joined_iff.2 ⟨r, hr, hrow⟩)
    (h.mem_joined_iff.2 ⟨q, hq, hrow'⟩) hsong
  have hid : r.id = q.id := by rw [← hrow.id, ← hrow'.id, hsame]
  exact List.inj_on_of_nodup_map h.trackIds.nodup hr hq hid

/-! ## What is in the way of a track -/

/-- **What is in the way of a track** is its path, or its song. -/
theorem any_blocks_iff (h : Sound t) {track : Track} {performer album : Int}
    {artist name : String} (hartist : (t.performer? performer).map (·.name) = some artist)
    (halbum : (t.album? album).map (·.name) = some name) :
    t.joined.any (t.blocks track performer album) = true ↔
      track.path ∈ t.paths ∨ ⟨artist, name, track.genre, track.title⟩ ∈ t.songs := by
  have hpaths : t.paths = t.joined.map (·.path) := h.joined_paths.symm
  simp only [hpaths, songs, blocks, hartist, halbum, List.any_eq_true, List.mem_map,
    decide_eq_true_eq, Option.some.injEq, JoinedRow.song, Song.mk.injEq]
  constructor
  · rintro ⟨row, hrow, hpath | ⟨hp, ha, hgenre, htitle⟩⟩
    · exact .inl ⟨row, hrow, hpath⟩
    · exact .inr ⟨row, hrow, hp.symm, ha.symm, hgenre, htitle⟩
  · rintro (⟨row, hrow, hpath⟩ | ⟨row, hrow, hp, ha, hgenre, htitle⟩)
    · exact ⟨row, hrow, .inl hpath⟩
    · exact ⟨row, hrow, .inr ⟨hp.symm, ha.symm, hgenre, htitle⟩⟩

/-- A track whose path or whose song is there is not put in. -/
theorem place_of_mem (h : Sound t) {track : Track} {performer album : Int} {artist name : String}
    (hartist : (t.performer? performer).map (·.name) = some artist)
    (halbum : (t.album? album).map (·.name) = some name)
    (hmem : track.path ∈ t.paths ∨ ⟨artist, name, track.genre, track.title⟩ ∈ t.songs) :
    t.place track performer album = (.alreadyPresent, t) :=
  place_of_blocked ((h.any_blocks_iff hartist halbum).2 hmem)

/-- A track whose path and whose song are new is put in, with both of them. -/
theorem place_of_not_mem (h : Sound t) {track : Track} {performer album : Int}
    {artist name : String} (hartist : (t.performer? performer).map (·.name) = some artist)
    (halbum : (t.album? album).map (·.name) = some name)
    (hpath : track.path ∉ t.paths)
    (hsong : ⟨artist, name, track.genre, track.title⟩ ∉ t.songs) :
    (t.place track performer album).1 = .inserted t.nextTrack ∧
      (t.place track performer album).2.paths = t.paths ++ [track.path] ∧
      (t.place track performer album).2.songs =
        t.songs ++ [⟨artist, name, track.genre, track.title⟩] := by
  have hclear : t.joined.any (t.blocks track performer album) = false := by
    rw [← Bool.not_eq_true, h.any_blocks_iff hartist halbum, not_or]
    exact ⟨hpath, hsong⟩
  obtain ⟨hid, hjoined⟩ := h.joined_place_of_clear hartist halbum hclear
  refine ⟨hid, ?_, ?_⟩
  · rw [place, if_neg (by simp [hclear])]
    exact List.map_append
  · rw [songs, hjoined, List.map_append]
    rfl

end Sound

/-! ## Steps past the check -/

/-- One write that puts in a track only if no row is in its way, and writes none anew. -/
inductive Guarded : Tables → Tables → Prop
  /-- A track is added that no row is in the way of. -/
  | track {t : Tables} (track : Track) (performer album : Int)
      (hclear : t.joined.any (t.blocks track performer album) = false)
      (hpath : ∀ q ∈ t.tracks, q.path ≠ track.path)
      (hperformer : (t.performer? performer).isSome) (halbum : (t.album? album).isSome) :
      Guarded t (t.pushTrack (track.tableRow performer album)).2
  /-- Something is written that is no track. -/
  | other {t u : Tables} (hstep : Step t u) (htracks : u.tracks = t.tracks) : Guarded t u

theorem Addition.guarded {t u : Tables} (h : Addition t u) : Guarded t u := by
  have hstep := h.step
  cases h with
  | track track performer album hclear hpath hperformer halbum =>
    exact .track track performer album hclear hpath hperformer halbum
  | performer name htrim hname => exact .other hstep rfl
  | album directory name year hname => exact .other hstep rfl
  | other _ hnames halbums htracks => exact .other hstep htracks

theorem Guarded.step {t u : Tables} (h : Guarded t u) : Step t u := by
  cases h with
  | track track performer album hclear hpath hperformer halbum =>
    exact .track _ hpath hperformer halbum
  | other hstep htracks => exact hstep

/-- **A step past the check makes no song occur twice.** -/
theorem Guarded.songs_nodup {t u : Tables} (h : Guarded t u) (ht : Sound t)
    (hnodup : t.songs.Nodup) : u.songs.Nodup := by
  cases h with
  | track track performer album hclear hpath hperformer halbum =>
    obtain ⟨p, hp⟩ := Option.isSome_iff_exists.1 hperformer
    obtain ⟨a, ha⟩ := Option.isSome_iff_exists.1 halbum
    have hartist : (t.performer? performer).map (·.name) = some p.name := by simp [hp]
    have hname : (t.album? album).map (·.name) = some a.name := by simp [ha]
    have hmem := mt (ht.any_blocks_iff hartist hname).2 (by simpa using hclear)
    rw [not_or] at hmem
    obtain ⟨-, -, hsongs⟩ := ht.place_of_not_mem hartist hname hmem.1 hmem.2
    rw [place, if_neg (by simp [hclear])] at hsongs
    rw [hsongs]
    refine List.nodup_append.2 ⟨hnodup, List.nodup_singleton _, ?_⟩
    intro song hsong b hb
    rw [List.mem_singleton.1 hb]
    rintro rfl
    exact hmem.2 hsong
  | other hstep htracks =>
    have hjoined := hstep.keeps.joined_eq ht (.step hstep ht) htracks
    rwa [songs, hjoined]

/-- Neither do any number of them. -/
theorem songs_nodup_of_guarded {t u : Tables} (h : Relation.ReflTransGen Guarded t u)
    (ht : Sound t) (hnodup : t.songs.Nodup) : u.songs.Nodup := by
  induction h using Relation.ReflTransGen.head_induction_on with
  | refl => exact hnodup
  | head hfirst _ ih => exact ih (.step hfirst.step ht) (hfirst.songs_nodup ht hnodup)

end Tables

/-! ## Requests past the check -/

open Tables (Guarded)

/-- Whether a request puts in tracks only past the check, and writes none anew. -/
def Request.isGuarded : Request → Bool
  | .updateTrack _ => false
  | .addTrackRow _ _ _ _ _ _ _ => false
  | _ => true

/-- **Such a request** takes the tables through steps past the check. -/
theorem stepwise_guarded {request : Request} (h : request.isGuarded = true)
    (hclose : request ≠ .close) (hreopen : request ≠ .reopen) : Stepwise Guarded request.run := by
  by_cases hadd : request.isAddition = true
  · exact (stepwise_addition hadd).mono fun _ _ => Tables.Addition.guarded
  cases request with
  | updateTrack track => cases h
  | addTrackRow performer album path title number year genre => cases h
  | addPerformerRow kind name =>
    refine (stepwise_addRow (r := Guarded) fun t id u hu => ?_).answer _
    obtain ⟨k, n, -, -, -, hpush⟩ := Tables.addPerformer_eq_ok hu
    exact .other (Tables.step_of_addPerformer hu) (congrArg (·.2.tracks) hpush)
  | addAlbumRow directory name year =>
    refine (stepwise_addRow (r := Guarded) fun t id u hu => ?_).answer _
    obtain ⟨d, n, y, -, hpush⟩ := Tables.addAlbum_eq_ok hu
    exact .other (Tables.step_of_addAlbum hu) (congrArg (·.2.tracks) hpush)
  | close => exact absurd rfl hclose
  | reopen => exact absurd rfl hreopen
  | _ => exact absurd rfl hadd

namespace Store

/-- The stores that come about from a new one if no request writes a track past the check. -/
inductive Checked : Store → Prop
  /-- A new store has empty tables. -/
  | new (readOnly inMemory : Bool) : Checked { readOnly, inMemory }
  /-- A database on the disk may be opened again, for reading only or not. -/
  | opened {s : Store} (readOnly : Bool) (hdisk : s.inMemory = false) (h : Checked s) :
      Checked { s with isOpen := true, readOnly }
  /-- A store answers a request, whether it succeeds or not. -/
  | answered {s : Store} (request : Request) (hrequest : request.isGuarded = true)
      (h : Checked s) : Checked (request.run.run s).2

theorem Checked.reachable {s : Store} (h : s.Checked) : s.Reachable := by
  induction h with
  | new readOnly inMemory => exact .new readOnly inMemory
  | opened readOnly hdisk _ ih => exact ih.opened readOnly hdisk
  | answered request _ _ ih => exact ih.answered request

/-- A history of such requests leads from one such store to another. -/
theorem Checked.runAll {s : Store} (h : s.Checked) {requests : List Request}
    (hrequests : ∀ request ∈ requests, request.isGuarded = true) :
    Checked ((Request.runAll requests).run s).2 := by
  induction requests generalizing s with
  | nil => exact h
  | cons request requests ih =>
    rw [Request.runAll_cons]
    exact ih (h.answered request (hrequests request (.head _)))
      fun later hlater => hrequests later (.tail _ hlater)

/-- No song occurs twice in such a store. -/
theorem Checked.songs_nodup {s : Store} (h : s.Checked) : s.tables.songs.Nodup := by
  induction h with
  | new =>
    rw [Tables.songs_empty]
    exact List.nodup_nil
  | opened _ _ _ ih => exact ih
  | answered request hrequest hs ih =>
    refine tables_run_of_steps (P := fun t => t.songs.Nodup) ?_ (stepwise_guarded hrequest)
      fun _ hu => Tables.songs_nodup_of_guarded hu hs.reachable.sound ih
    rw [Tables.songs_empty]
    exact List.nodup_nil

/-- **No song is stored twice.**  In a library that was never written past the check two tracks do
not share the names of their performers and of their albums, their genre and their title, whatever
was asked, with whatever numbers, and wherever the tracks and their albums lie. -/
theorem Checked.songs_distinct {s : Store} (h : s.Checked) :
    ∀ r ∈ s.tables.tracks, ∀ q ∈ s.tables.tracks,
      (s.tables.performer? r.performer).map (·.name) =
        (s.tables.performer? q.performer).map (·.name) →
      (s.tables.album? r.album).map (·.name) = (s.tables.album? q.album).map (·.name) →
      r.genre = q.genre → r.title = q.title → r = q := by
  intro r hr q hq
  exact h.reachable.sound.eq_of_same_song h.songs_nodup hr hq

/-- A song that is there is not put in on an album of the same name in another folder, and another
song is. -/
theorem songs_distinct_twoFolders :
    ∃ s, ((Request.runAll [.resolvePerformer "Ann", .resolveAlbum "music/a" "Red" 2018,
        .resolveAlbum "music/b" "Red" 2019,
        .insertTrack { title := "Snow", path := "music/a/1.mp3" } 1 1,
        .insertTrack { title := "Snow", path := "music/b/1.mp3" } 1 2,
        .insertTrack { title := "Rain", path := "music/b/2.mp3" } 1 2]).run ({} : Store)).2 = s ∧
      s.tables.tracks.map (fun r => (r.album, r.path)) =
        [(1, "music/a/1.mp3"), (2, "music/b/2.mp3")] ∧
      ∀ r ∈ s.tables.tracks, ∀ q ∈ s.tables.tracks,
        (s.tables.performer? r.performer).map (·.name) =
          (s.tables.performer? q.performer).map (·.name) →
        (s.tables.album? r.album).map (·.name) = (s.tables.album? q.album).map (·.name) →
        r.genre = q.genre → r.title = q.title → r = q :=
  ⟨_, rfl, by decide +kernel, (Checked.runAll (.new false false) (by decide)).songs_distinct⟩

end Store
end Fonoteca
