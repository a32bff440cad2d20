import Fonoteca.Proofs.Scan.Ingestion
import Fonoteca.Proofs.Store.Songs

/-!
# The order of an ingestion

Which of two tracks of the same song is kept depends on the order in which they are put in, and so
do the numbers that everything gets.  What the library then has does not: which songs, which
performers and which albums.

* `Tables.songOf` is the song that a track will be of once it is stored.  It stays the same while
  the library grows (`Tables.Extends.songOf`).
* `Tables.Sound.ingest_cases` : one track adds its song, unless its path or its song is there.
* **`Tables.Sound.songs_ingestAll`** : a list of tracks of different paths adds, once each, the
  songs that were not there of the tracks whose paths were not there.  No order is left in this.
* **`Store.Reachable.populate_perm`** : the order in which tracks are put in matters neither for the
  report nor for what the library has.
-/

set_option autoImplicit false

namespace Fonoteca

open Tables (Sound Additions Extends)

namespace Tables

/-- The names of the performers. -/
def artists (t : Tables) : List String :=
  t.performers.map (·.name)

/-- The albums as the library tells them apart: by folder and name. -/
def shelves (t : Tables) : List (String × String) :=
  t.albums.map fun a => (a.directory, a.name)

/-- The name under which a performer is stored: the name that a track gives if there is a performer
of this name, and otherwise that name without the blanks around it. -/
def storedName (t : Tables) (name : String) : String :=
  if (t.performerNamed? name).isSome then name else Text.trim name

/-- The song of a track, with its performer as stored. -/
def songOf (t : Tables) (track : Track) : Song :=
  ⟨t.storedName track.artist, track.album, track.genre, track.title⟩

/-! ## Names as they are stored -/

theorem storedName_of_named {t : Tables} {name : String} {id : Int}
    (h : t.performerNamed? name = some id) : t.storedName name = name :=
  if_pos (by rw [h]; rfl)

theorem storedName_of_unnamed {t : Tables} {name : String} (h : t.performerNamed? name = none) :
    t.storedName name = Text.trim name :=
  if_neg (by simp [h])

/-- A performer who is known has the name under which the track's performer is stored. -/
theorem Sound.performer?_name_of_known {t : Tables} (h : Sound t) {name : String} {id : Int}
    (hid : t.knownPerformer? name = some id) :
    (t.performer? id).map (·.name) = some (t.storedName name) := by
  rw [knownPerformer?] at hid
  cases hname : t.performerNamed? name with
  | some found =>
    rw [hname, Option.some_or] at hid
    rw [storedName_of_named hname, ← Option.some.inj hid]
    exact h.performer?_name_of_named hname
  | none =>
    rw [hname, Option.none_or] at hid
    rw [storedName_of_unnamed hname]
    exact h.performer?_name_of_named hid

namespace Extends

variable {t u : Tables}

/-- **A name is stored alike** however much the library has grown: a name with blanks around it that
is not there is never added. -/
theorem storedName (h : Extends t u) (name : String) : u.storedName name = t.storedName name := by
  by_cases hblanks : Text.trim name = name
  · rw [Tables.storedName, Tables.storedName, hblanks, ite_self, ite_self]
  · cases hname : t.performerNamed? name with
    | some id => rw [storedName_of_named hname,
        storedName_of_named (h.keepsNames.performerNamed? hname)]
    | none => rw [storedName_of_unnamed hname,
        storedName_of_unnamed (h.performerNamed?_none hblanks hname)]

theorem songOf (h : Extends t u) (track : Track) : u.songOf track = t.songOf track := by
  rw [Tables.songOf, Tables.songOf, h.storedName]

end Extends

/-! ## Performers and albums -/

theorem mem_artists_of_named {t : Tables} {name : String} {id : Int}
    (h : t.performerNamed? name = some id) : name ∈ t.artists := by
  obtain ⟨p, hp, -⟩ := Option.map_eq_some_iff.1 h
  have hname : p.name = name := by simpa using List.find?_some hp
  exact hname ▸ List.mem_map_of_mem (List.mem_of_find?_eq_some hp)

theorem mem_shelves_of_named {t : Tables} {directory name : String} {id : Int}
    (h : t.albumNamed? directory name = some id) : (directory, name) ∈ t.shelves := by
  obtain ⟨a, ha, -⟩ := Option.map_eq_some_iff.1 h
  have hname : a.directory = directory ∧ a.name = name := by simpa using List.find?_some ha
  rw [← hname.1, ← hname.2]
  exact List.mem_map_of_mem (List.mem_of_find?_eq_some ha)

theorem mem_artists_performerFor (t : Tables) (name : String) {artist : String} :
    artist ∈ (t.performerFor name).2.artists ↔ artist ∈ t.artists ∨ artist = Text.trim name := by
  rw [performerFor]
  split
  · next id hid =>
    constructor
    · exact .inl
    · rintro (hmem | rfl)
      · exact hmem
      · exact mem_artists_of_named hid
  · simp [artists, pushPerformer]

theorem mem_artists_findPerformer (t : Tables) (name : String) {artist : String} :
    artist ∈ (t.findPerformer name).2.artists ↔
      artist ∈ t.artists ∨ artist = t.storedName name := by
  rw [findPerformer]
  split
  · next id hid =>
    rw [storedName_of_named hid]
    constructor
    · exact .inl
    · rintro (hmem | rfl)
      · exact hmem
      · exact mem_artists_of_named hid
  · next hnone =>
    rw [storedName_of_unnamed hnone]
    exact mem_artists_performerFor t name

theorem mem_shelves_albumFor (t : Tables) (directory name : String) (year : Int32)
    {shelf : String × String} :
    shelf ∈ (t.albumFor directory name year).2.shelves ↔
      shelf ∈ t.shelves ∨ shelf = (directory, name) := by
  rw [albumFor]
  split
  · next id hid =>
    constructor
    · exact .inl
    · rintro (hmem | rfl)
      · exact hmem
      · exact mem_shelves_of_named hid
  · simp [shelves, pushAlbum]

theorem albums_findPerformer (t : Tables) (name : String) :
    (t.findPerformer name).2.albums = t.albums := by
  rw [findPerformer]
  split
  · rfl
  · rw [performerFor]
    split <;> rfl

theorem performers_place (t : Tables) (track : Track) (performer album : Int) :
    (t.place track performer album).2.performers = t.performers := by
  rw [place]
  split <;> rfl

theorem albums_place (t : Tables) (track : Track) (performer album : Int) :
    (t.place track performer album).2.albums = t.albums := by
  rw [place]
  split <;> rfl

/-- **The performer of a track** is there once the track was put in, and no other is new. -/
theorem mem_artists_ingest (t : Tables) (track : Track) {artist : String} :
    artist ∈ (t.ingest track).2.artists ↔
      artist ∈ t.artists ∨ artist = t.storedName track.artist := by
  rw [← mem_artists_findPerformer, ingest, artists, performers_place, performers_albumFor]
  rfl

/-- **The album of a track** is there once the track was put in, and no other is new. -/
theorem mem_shelves_ingest (t : Tables) (track : Track) {shelf : String × String} :
    shelf ∈ (t.ingest track).2.shelves ↔
      shelf ∈ t.shelves ∨ shelf = (track.albumDir, track.album) := by
  rw [ingest, shelves, albums_place]
  refine (mem_shelves_albumFor _ _ _ _).trans ?_
  rw [shelves, albums_findPerformer]
  rfl

namespace Sound

variable {t : Tables}

/-- The performers that a list of tracks adds. -/
theorem mem_artists_ingestAll (h : Sound t) (tracks : List Track) (artist : String) :
    artist ∈ (t.ingestAll tracks).artists ↔
      artist ∈ t.artists ∨ ∃ track ∈ tracks, artist = t.storedName track.artist := by
  induction tracks generalizing t with
  | nil => simp [ingestAll]
  | cons track tracks ih =>
    have hadditions := h.additions_ingest track
    have hstored := (Additions.extends hadditions).storedName
    refine (ih (.additions hadditions h)).trans ?_
    simp only [hstored, t.mem_artists_ingest track, List.mem_cons, exists_eq_or_imp, or_assoc]

/-- The albums that a list of tracks adds. -/
theorem mem_shelves_ingestAll (h : Sound t) (tracks : List Track) (shelf : String × String) :
    shelf ∈ (t.ingestAll tracks).shelves ↔
      shelf ∈ t.shelves ∨ ∃ track ∈ tracks, shelf = (track.albumDir, track.album) := by
  induction tracks generalizing t with
  | nil => simp [ingestAll]
  | cons track tracks ih =>
    refine (ih (.additions (h.additions_ingest track) h)).trans ?_
    simp only [t.mem_shelves_ingest track, List.mem_cons, exists_eq_or_imp, or_assoc]

/-! ## Songs -/

/-- **One track** is passed over if its path or its song is there, and otherwise adds both. -/
theorem ingest_cases (h : Sound t) (track : Track) :
    ((track.path ∈ t.paths ∨ t.songOf track ∈ t.songs) ∧
      (t.ingest track).1.newTrack track = none ∧ (t.ingest track).2.songs = t.songs ∧
      (t.ingest track).2.paths = t.paths) ∨
    ((track.path ∉ t.paths ∧ t.songOf track ∉ t.songs) ∧
      (∃ new, (t.ingest track).1.newTrack track = some new) ∧
      (t.ingest track).2.songs = t.songs ++ [t.songOf track] ∧
      (t.ingest track).2.paths = t.paths ++ [track.path]) := by
  obtain ⟨performer, album, u, hadditions, hu, htracks, hknown, hnamed, hingest⟩ :=
    h.resolved track
  have hextends : Extends t u := Additions.extends hadditions
  have hsongs : u.songs = t.songs := by
    rw [songs, songs, hextends.keepsNames.joined_eq h hu htracks]
  have hpaths : u.paths = t.paths := by rw [Tables.paths, Tables.paths, htracks]
  have hartist := hu.performer?_name_of_known hknown
  have halbum := hu.album?_name_of_named hnamed
  rw [hingest, ← hsongs, ← hpaths, ← hextends.songOf]
  by_cases hmem : track.path ∈ u.paths ∨ u.songOf track ∈ u.songs
  · rw [hu.place_of_mem hartist halbum hmem]
    exact .inl ⟨hmem, rfl, rfl, rfl⟩
  · rw [not_or] at hmem
    obtain ⟨hid, hpaths', hsongs'⟩ := hu.place_of_not_mem hartist halbum hmem.1 hmem.2
    rw [hid]
    exact .inr ⟨hmem, ⟨_, rfl⟩, hsongs', hpaths'⟩

end Sound

/-- The songs that a list of tracks adds: each once, and each one that was not there, of a track
whose path was not there.  Which of several tracks of a song is the one that is kept is left open,
and with it the order of the tracks. -/
structure NewSongs (t : Tables) (tracks : List Track) (new : List Song) : Prop where
  nodup : new.Nodup
  mem_iff : ∀ song, song ∈ new ↔
    song ∉ t.songs ∧ ∃ track ∈ tracks, track.path ∉ t.paths ∧ t.songOf track = song

namespace NewSongs

variable {t u : Tables} {track : Track} {tracks tracks' : List Track} {new new' : List Song}

theorem nil (t : Tables) : NewSongs t [] [] where
  nodup := .nil
  mem_iff := by simp

/-- A track that is passed over adds nothing, and none of the songs to come is its song. -/
theorem skip (h : NewSongs u tracks new)
    (hthere : track.path ∈ t.paths ∨ t.songOf track ∈ t.songs) (hsongs : u.songs = t.songs)
    (hpaths : u.paths = t.paths) (hsongOf : u.songOf = t.songOf) :
    NewSongs t (track :: tracks) new where
  nodup := h.nodup
  mem_iff song := by
    rw [h.mem_iff, hsongs, hpaths, hsongOf]
    refine and_congr_right fun hsong => ?_
    simp only [List.mem_cons, exists_eq_or_imp]
    refine (or_iff_right ?_).symm
    rintro ⟨hpath, rfl⟩
    exact hthere.elim hpath hsong

/-- A track that is put in adds its song, and no later track has its path. -/
theorem cons (h : NewSongs u tracks new) (hpath : track.path ∉ t.paths)
    (hsong : t.songOf track ∉ t.songs) (hsongs : u.songs = t.songs ++ [t.songOf track])
    (hpaths : u.paths = t.paths ++ [track.path]) (hsongOf : u.songOf = t.songOf)
    (hother : ∀ later ∈ tracks, later.path ≠ track.path) :
    NewSongs t (track :: tracks) (t.songOf track :: new) where
  nodup := by
    refine List.nodup_cons.2 ⟨fun hmem => ?_, h.nodup⟩
    have hnew := ((h.mem_iff _).1 hmem).1
    rw [hsongs] at hnew
    exact hnew (List.mem_append_right _ (List.mem_singleton_self _))
  mem_iff song := by
    rw [List.mem_cons, h.mem_iff, hsongs, hpaths, hsongOf]
    constructor
    · rintro (rfl | ⟨hnew, later, hlater, hnotPath, rfl⟩)
      · exact ⟨hsong, track, .head _, hpath, rfl⟩
      · rw [List.mem_append, not_or] at hnew hnotPath
        exact ⟨hnew.1, later, .tail _ hlater, hnotPath.1, rfl⟩
    · rintro ⟨hnew, later, hlater, hnotPath, rfl⟩
      rcases List.mem_cons.1 hlater with rfl | hlater
      · exact .inl rfl
      · by_cases hsame : t.songOf later = t.songOf track
        · exact .inl hsame
        · exact .inr ⟨by simp [hnew, hsame], later, hlater,
            by simp [hnotPath, hother later hlater], rfl⟩

/-- In another order the tracks add the same songs. -/
theorem perm (h : NewSongs t tracks new) (h' : NewSongs t tracks' new')
    (hperm : tracks.Perm tracks') : new.Perm new' := by
  refine (List.perm_ext_iff_of_nodup h.nodup h'.nodup).2 fun song => ?_
  simp only [h.mem_iff, h'.mem_iff, hperm.mem_iff]

end NewSongs

namespace Sound

variable {t : Tables}

/-- **The songs that a list of tracks adds**, if all of their paths are different. -/
theorem songs_ingestAll (h : Sound t) {tracks : List Track}
    (hpaths : (tracks.map (·.path)).Nodup) :
    ∃ new, (t.ingestAll tracks).songs = t.songs ++ new ∧ t.NewSongs tracks new := by
  induction tracks generalizing t with
  | nil => exact ⟨[], (List.append_nil _).symm, .nil t⟩
  | cons track tracks ih =>
    rw [List.map_cons, List.nodup_cons] at hpaths
    have hadditions := h.additions_ingest track
    have hsongOf : (t.ingest track).2.songOf = t.songOf :=
      funext (Additions.extends hadditions).songOf
    obtain ⟨new, hsongs, hnew⟩ := ih (.additions hadditions h) hpaths.2
    have hall : (t.ingestAll (track :: tracks)).songs = (t.ingest track).2.songs ++ new := hsongs
    rw [hall]
    rcases h.ingest_cases track with ⟨hthere, -, hsongs₁, hpaths₁⟩ | ⟨hclear, -, hsongs₁, hpaths₁⟩
    · rw [hsongs₁]
      exact ⟨new, rfl, hnew.skip hthere hsongs₁ hpaths₁ hsongOf⟩
    · have hother : ∀ later ∈ tracks, later.path ≠ track.path := fun later hlater hsame =>
        hpaths.1 (hsame ▸ List.mem_map_of_mem hlater)
      refine ⟨t.songOf track :: new, ?_,
        hnew.cons hclear.1 hclear.2 hsongs₁ hpaths₁ hsongOf hother⟩
      rw [hsongs₁, List.append_assoc]
      rfl

end Sound

/-! ## Another order -/

namespace Sound

variable {t : Tables} {tracks tracks' : List Track}

/-- In another order the tracks add the same performers. -/
theorem artists_perm (h : Sound t) (hperm : tracks.Perm tracks') :
    (t.ingestAll tracks).artists.Perm (t.ingestAll tracks').artists := by
  have hsound (tracks : List Track) : Sound (t.ingestAll tracks) :=
    .additions (h.additions_ingestAll tracks) h
  refine (List.perm_ext_iff_of_nodup (hsound _).performerNames (hsound _).performerNames).2
    fun artist => ?_
  have hmem := h.mem_artists_ingestAll tracks artist
  have hmem' := h.mem_artists_ingestAll tracks' artist
  simp only [hperm.mem_iff] at hmem
  exact hmem.trans hmem'.symm

/-- In another order the tracks add the same albums. -/
theorem shelves_perm (h : Sound t) (hperm : tracks.Perm tracks') :
    (t.ingestAll tracks).shelves.Perm (t.ingestAll tracks').shelves := by
  have hsound (tracks : List Track) : Sound (t.ingestAll tracks) :=
    .additions (h.additions_ingestAll tracks) h
  refine (List.perm_ext_iff_of_nodup (hsound _).albumNames (hsound _).albumNames).2
    fun shelf => ?_
  have hmem := h.mem_shelves_ingestAll tracks shelf
  have hmem' := h.mem_shelves_ingestAll tracks' shelf
  simp only [hperm.mem_iff] at hmem
  exact hmem.trans hmem'.symm

/-- In another order the tracks add the same songs. -/
theorem songs_perm (h : Sound t) (hpaths : (tracks.map (·.path)).Nodup)
    (hperm : tracks.Perm tracks') :
    (t.ingestAll tracks).songs.Perm (t.ingestAll tracks').songs := by
  obtain ⟨new, hsongs, hnew⟩ := h.songs_ingestAll hpaths
  obtain ⟨new', hsongs', hnew'⟩ := h.songs_ingestAll ((hperm.map (·.path)).nodup_iff.1 hpaths)
  rw [hsongs, hsongs']
  exact (hnew.perm hnew' hperm).append_left _

end Sound
end Tables

/-! ## Two ingestions -/

variable {s s₁ s₂ : Store} {tracks tracks' : List Track}

/-- The report counts the songs that were added, and the other tracks. -/
theorem counts_of_populate {patience : Patience} {accepted : List Track}
    {report : IngestionReport} (h : Sound s.tables)
    (hrun : (populate patience tracks).run s = ((accepted, .ok report), s₁)) :
    s.tables.songs.length + report.inserted = s₁.tables.songs.length ∧
      report.inserted + report.skipped = tracks.length := by
  induction tracks generalizing s patience accepted report with
  | nil =>
    cases hrun
    exact ⟨rfl, rfl⟩
  | cons track tracks ih =>
    obtain ⟨hopen, hwrite⟩ := writable_of_populate h hrun
    have hfirst := Store.run_ingest h hopen hwrite track
    have hsound : Sound (s.tables.ingest track).2 := .additions (h.additions_ingest track) h
    obtain ⟨later, rest, hrest⟩ := Store.run_populate
      (s := { s with tables := (s.tables.ingest track).2 }) hsound hopen hwrite
      (patience.after ((s.tables.ingest track).1.newTrack track)) tracks
    rw [run_populate_cons_ok hfirst hrest] at hrun
    cases hrun
    obtain ⟨hadded, htotal⟩ := ih hsound hrest
    rw [List.length_cons, ← htotal]
    rcases h.ingest_cases track with ⟨-, hnone, hsongs, -⟩ | ⟨-, ⟨new, hsome⟩, hsongs, -⟩
    · rw [hsongs] at hadded
      rw [hnone]
      exact ⟨hadded, (Nat.add_assoc _ _ _).symm⟩
    · rw [hsongs, List.length_append, List.length_singleton] at hadded
      rw [hsome]
      exact ⟨(Nat.add_right_comm _ _ 1).trans hadded, Nat.add_right_comm _ 1 _⟩

/-- **The order of an ingestion does not matter** for what the library has.  Tracks of different
paths that are put into an open store in another order are reported alike, so many new and so many
passed over, and the store then has the same songs, the same performers by name and the same albums
by folder and name.  Only a store that may not be written refuses the tracks, and it refuses them
alike. -/
theorem Store.Reachable.populate_perm (hs : s.Reachable) (hopen : s.isOpen = true)
    (hperm : tracks.Perm tracks') (hpaths : (tracks.map (·.path)).Nodup)
    {patience patience' : Patience} {accepted accepted' : List Track}
    {result result' : Except StoreError IngestionReport}
    (hrun : (populate patience tracks).run s = ((accepted, result), s₁))
    (hrun' : (populate patience' tracks').run s = ((accepted', result'), s₂)) :
    result = result' ∧ (s.readOnly = false → ∃ report, result = .ok report) ∧
      s₁.tables.songs.Perm s₂.tables.songs ∧ s₁.tables.artists.Perm s₂.tables.artists ∧
      s₁.tables.shelves.Perm s₂.tables.shelves := by
  by_cases hread : s.readOnly = true
  · have hrefused : result = result' ∧ s₁ = s₂ := by
      cases tracks with
      | nil =>
        rw [← hperm.nil_eq] at hrun'
        cases hrun
        cases hrun'
        exact ⟨rfl, rfl⟩
      | cons track tracks =>
        obtain ⟨first, rest, rfl⟩ := List.exists_cons_of_ne_nil
          (l := tracks') (by rintro rfl; exact absurd hperm.length_eq (by simp))
        rw [run_populate_readOnly hs.sound hopen hread] at hrun hrun'
        cases hrun
        cases hrun'
        exact ⟨rfl, rfl⟩
    obtain ⟨rfl, rfl⟩ := hrefused
    exact ⟨rfl, fun hwrite => absurd hread (by simp [hwrite]), .refl _, .refl _, .refl _⟩
  · have hwrite : s.readOnly = false := by simpa using hread
    obtain ⟨_, report, hfirst⟩ := run_populate hs.sound hopen hwrite patience tracks
    obtain ⟨_, report', hsecond⟩ := run_populate hs.sound hopen hwrite patience' tracks'
    obtain ⟨hadded, htotal⟩ := counts_of_populate hs.sound hfirst
    obtain ⟨hadded', htotal'⟩ := counts_of_populate hs.sound hsecond
    have hsongs := hs.sound.songs_perm hpaths hperm
    rw [hrun] at hfirst
    rw [hrun'] at hsecond
    cases hfirst
    cases hsecond
    refine ⟨?_, fun _ => ⟨report, rfl⟩, hsongs, hs.sound.artists_perm hperm,
      hs.sound.shelves_perm hperm⟩
    have hlength := hsongs.length_eq
    have htracks := hperm.length_eq
    obtain ⟨inserted, skipped⟩ := report
    obtain ⟨inserted', skipped'⟩ := report'
    simp only [Except.ok.injEq, IngestionReport.mk.injEq] at hadded hadded' htotal htotal' ⊢
    omega

/-- Of two tracks of a song the one that is put in first is kept, and so the library has this song
in either order. -/
theorem Store.populate_perm_twoFolders :
    ∃ s₁ s₂ : Store,
      ((populate none [{ artist := " Bo ", path := "a/1.mp3" },
        { artist := "Bo", path := "b/1.mp3" }]).run {}).2 = s₁ ∧
      ((populate (some 0) [{ artist := "Bo", path := "b/1.mp3" },
        { artist := " Bo ", path := "a/1.mp3" }]).run {}).2 = s₂ ∧
      s₁.tables.paths = ["a/1.mp3"] ∧ s₂.tables.paths = ["b/1.mp3"] ∧
      s₁.tables.songs.Perm s₂.tables.songs ∧ s₁.tables.artists.Perm s₂.tables.artists ∧
      s₁.tables.shelves.Perm s₂.tables.shelves := by
  have hrun : (populate none [{ artist := " Bo ", path := "a/1.mp3" },
      { artist := "Bo", path := "b/1.mp3" }]).run {} = ((_, _), _) := rfl
  obtain ⟨-, -, hsame⟩ := (Reachable.new false false).populate_perm rfl (.swap _ _ _) (by decide)
    hrun (show (populate (some 0) _).run _ = ((_, _), _) from rfl)
  exact ⟨_, _, rfl, rfl, by decide +kernel, by decide +kernel, hsame⟩

end Fonoteca
