import Fonoteca.Proofs.Scan.Completion
import Fonoteca.Proofs.Store.Songs

/-!
# What becomes of a track that is to be put in

An insertion looks for rows in the way first, and only then at the performer and the album that it
was given.  A number that no performer or no album has leads to no names, and then only the path of
the track is looked for; so a path that is taken is said to be there even for such a number, and
the number is refused only where the path is new.

* `Tables.IsOf` says that a row of tracks is of a song, `Tables.Holds` that the tables have the path
  or the song of a track already.
* **`Tables.Sound.any_blocks_iff_holds`** : this is what the check before an insertion finds out,
  whether the performer and the album are there or not.
* An insertion then goes in one of three ways: `Tables.Sound.insertTrack_of_holds`,
  `Tables.Sound.insertTrack_of_missing`, `Tables.Sound.insertTrack_of_new`.
* **`Store.Reachable.insertion_decided`** : what a store says to an insertion, and what it does.
-/

set_option autoImplicit false

namespace Fonoteca

/-- Where numbers ascend, the next one is above the greatest of them. -/
theorem nextId_eq_max? {ids : List Int} (h : Ascending ids) :
    nextId ids = ids.max?.getD 0 + 1 := by
  obtain _ | ⟨i, ids⟩ := ids
  · rfl
  · have hpos : 0 < i := h.positive i (.head _)
    rw [nextId, List.foldl_cons, List.max?_cons', Option.getD_some,
      Int.max_eq_right (Int.le_of_lt hpos)]

namespace Tables

/-- A row of tracks is of a song: the song has the names of its performer and its album, its genre
and its title. -/
structure IsOf (t : Tables) (r : TrackRow) (song : Song) : Prop where
  artist : ∃ p ∈ t.performers, p.id = r.performer ∧ p.name = song.artist
  album : ∃ a ∈ t.albums, a.id = r.album ∧ a.name = song.album
  genre : r.genre = song.genre
  title : r.title = song.title

/-- Some track has the path of a track, or else the given performer and the given album are there
and some track is of its song by this performer on this album. -/
def Holds (t : Tables) (track : Track) (performer album : Int) : Prop :=
  (∃ r ∈ t.tracks, r.path = track.path) ∨
    ∃ p ∈ t.performers, p.id = performer ∧ ∃ a ∈ t.albums, a.id = album ∧
      ∃ r ∈ t.tracks, t.IsOf r ⟨p.name, a.name, track.genre, track.title⟩

instance (t : Tables) (r : TrackRow) (song : Song) : Decidable (t.IsOf r song) :=
  decidable_of_iff ((∃ p ∈ t.performers, p.id = r.performer ∧ p.name = song.artist) ∧
      (∃ a ∈ t.albums, a.id = r.album ∧ a.name = song.album) ∧
      r.genre = song.genre ∧ r.title = song.title)
    ⟨fun ⟨hartist, halbum, hgenre, htitle⟩ => ⟨hartist, halbum, hgenre, htitle⟩,
      fun h => ⟨h.artist, h.album, h.genre, h.title⟩⟩

instance (t : Tables) (track : Track) (performer album : Int) :
    Decidable (t.Holds track performer album) :=
  inferInstanceAs (Decidable (_ ∨ _))

namespace Sound

variable {t : Tables}

/-! ## What the check looks for -/

theorem performer?_name_eq_some_iff (h : Sound t) {id : Int} {name : String} :
    (t.performer? id).map (·.name) = some name ↔ ∃ p ∈ t.performers, p.id = id ∧ p.name = name := by
  simp only [Option.map_eq_some_iff, h.performer?_eq_some_iff, and_assoc]

theorem album?_name_eq_some_iff (h : Sound t) {id : Int} {name : String} :
    (t.album? id).map (·.name) = some name ↔ ∃ a ∈ t.albums, a.id = id ∧ a.name = name := by
  simp only [Option.map_eq_some_iff, h.album?_eq_some_iff, and_assoc]

/-- The songs of the tables are those that their tracks are of. -/
theorem mem_songs_iff (h : Sound t) {song : Song} :
    song ∈ t.songs ↔ ∃ r ∈ t.tracks, t.IsOf r song := by
  simp only [songs, List.mem_map, h.mem_joined_iff]
  constructor
  · rintro ⟨row, ⟨r, hr, hrow⟩, rfl⟩
    exact ⟨r, hr, hrow.artist, hrow.album, hrow.genre.symm, hrow.title.symm⟩
  · rintro ⟨r, hr, hartist, halbum, hgenre, htitle⟩
    exact ⟨⟨r.id, song.artist, r.title, song.album, r.number, r.year, r.genre, r.path⟩,
      ⟨r, hr, rfl, rfl, rfl, rfl, rfl, rfl, hartist, halbum⟩,
      by rw [JoinedRow.song, hgenre, htitle]⟩

/-- **A row is in the way of a track** if and only if the tables hold the track. -/
theorem any_blocks_iff_holds (h : Sound t) {track : Track} {performer album : Int} :
    t.joined.any (t.blocks track performer album) = true ↔ t.Holds track performer album := by
  have hpaths : (∃ row ∈ t.joined, row.path = track.path) ↔
      ∃ r ∈ t.tracks, r.path = track.path := by
    rw [← List.mem_map, h.joined_paths, List.mem_map]
  simp only [List.any_eq_true, blocks, decide_eq_true_eq, and_or_left, exists_or, hpaths, Holds,
    ← h.mem_songs_iff, songs, List.mem_map]
  refine or_congr_right ⟨?_, ?_⟩
  · rintro ⟨row, hrow, hartist, halbum, hgenre, htitle⟩
    obtain ⟨p, hp, hpid, hpname⟩ := h.performer?_name_eq_some_iff.1 hartist
    obtain ⟨a, ha, haid, haname⟩ := h.album?_name_eq_some_iff.1 halbum
    exact ⟨p, hp, hpid, a, ha, haid, row, hrow,
      by rw [JoinedRow.song, hpname, haname, hgenre, htitle]⟩
  · rintro ⟨p, hp, hpid, a, ha, haid, row, hrow, hsong⟩
    obtain ⟨hartist, halbum, hgenre, htitle⟩ := Song.mk.inj hsong
    exact ⟨row, hrow, h.performer?_name_eq_some_iff.2 ⟨p, hp, hpid, hartist.symm⟩,
      h.album?_name_eq_some_iff.2 ⟨a, ha, haid, halbum.symm⟩, hgenre, htitle⟩

/-! ## How an insertion goes -/

/-- A track of a new path is refused for a performer or an album that is not there. -/
theorem addTrack_of_missing {track : Track} {performer album : Int}
    (hpath : ∀ r ∈ t.tracks, r.path ≠ track.path)
    (hmissing : performer ∉ t.performerIds ∨ album ∉ t.albumIds) :
    t.addTrack (some performer) (some album) (some track.path) (some track.title)
      (some track.number.toNat) (some track.year.toInt) (some track.genre) =
      .error .danglingReference := by
  have hrefs : ¬ ((t.performer? performer).isSome ∧ (t.album? album).isSome) := by
    rw [isSome_performer?_iff, isSome_album?_iff]
    exact not_and_or.2 hmissing
  have hdemand : demand ((t.performer? performer).isSome ∧ (t.album? album).isSome)
      .danglingReference = .error .danglingReference := if_neg hrefs
  simp only [addTrack, required, ok_bind, demand_of_true _ hpath, hdemand]
  rfl

/-- There is nothing to do for a track that the tables hold. -/
theorem insertTrack_of_holds (h : Sound t) {track : Track} {performer album : Int}
    (hholds : t.Holds track performer album) :
    t.insertTrack track performer album = .ok (.alreadyPresent, t) :=
  if_pos (h.any_blocks_iff_holds.2 hholds)

/-- A track that the tables do not hold is refused if they lack its performer or its album. -/
theorem insertTrack_of_missing (h : Sound t) {track : Track} {performer album : Int}
    (hnew : ¬ t.Holds track performer album)
    (hmissing : performer ∉ t.performerIds ∨ album ∉ t.albumIds) :
    t.insertTrack track performer album = .error .danglingReference := by
  have hpath : ∀ r ∈ t.tracks, r.path ≠ track.path :=
    fun r hr hr' => hnew (.inl ⟨r, hr, hr'⟩)
  rw [insertTrack, if_neg (mt h.any_blocks_iff_holds.1 hnew), addTrack_of_missing hpath hmissing]
  rfl

/-- Any other track is put behind the others. -/
theorem insertTrack_of_new (h : Sound t) {track : Track} {performer album : Int}
    (hnew : ¬ t.Holds track performer album) (hperformer : performer ∈ t.performerIds)
    (halbum : album ∈ t.albumIds) :
    t.insertTrack track performer album =
      .ok (.inserted t.nextTrack, (t.pushTrack (track.tableRow performer album)).2) := by
  rw [h.insertTrack_eq track (isSome_performer?_iff.2 hperformer) (isSome_album?_iff.2 halbum),
    place, if_neg (mt h.any_blocks_iff_holds.1 hnew)]

end Sound
end Tables

namespace Store

/-- **What becomes of an insertion.**  A number that is not positive is refused before all else, and
then any insertion if the tables may only be read.  Otherwise there is nothing to do if the tables
hold the track; else they may lack the performer or the album, and the track breaks a constraint;
else exactly this one row is put behind the others, under the number above the greatest.  No
insertion is refused as a duplicate. -/
theorem Reachable.insertion_decided {s : Store} (hs : s.Reachable) (hopen : s.isOpen = true)
    (track : Track) (performer album : Int) :
    (insertTrack track performer album).run s =
      (if performer ≤ 0 then (.error (.missingReference .performer performer), s)
      else if album ≤ 0 then (.error (.missingReference .album album), s)
      else if s.readOnly then (.error (.query .readOnly), s)
      else if s.tables.Holds track performer album then (.ok .alreadyPresent, s)
      else if performer ∉ s.tables.performerIds ∨ album ∉ s.tables.albumIds then
        (.error (.constraint "FOREIGN KEY constraint failed"), s)
      else
        let id := s.tables.trackIds.max?.getD 0 + 1
        (.ok (.inserted id), { s with tables := { s.tables with
          tracks := s.tables.tracks ++ [{ track.tableRow performer album with id }] } })) ∧
    ∀ reason, ((insertTrack track performer album).run s).1 ≠ .error (.duplicate reason) := by
  have hnext : s.tables.trackIds.max?.getD 0 + 1 = s.tables.nextTrack :=
    (nextId_eq_max? hs.sound.trackIds).symm
  rw [hnext]
  refine (and_iff_left_of_imp fun hrun reason => ?_).2 ?_
  · rw [hrun]
    split_ifs <;> simp
  rw [insertTrack]
  split_ifs with hperformer halbum hread hholds hmissing
  · rfl
  · rfl
  · exact run_change_readOnly hopen hread _
  · exact run_change_ok hopen (by simpa using hread)
      (by rw [hs.sound.insertTrack_of_holds hholds]; rfl)
  · exact run_change_error hopen (by simpa using hread)
      (by rw [hs.sound.insertTrack_of_missing hholds hmissing]; rfl)
  · rw [not_or, not_not, not_not] at hmissing
    exact run_change_ok hopen (by simpa using hread)
      (by rw [hs.sound.insertTrack_of_new hholds hmissing.1 hmissing.2]; rfl)

/-- A path that is there is found even for an album that is not. -/
theorem insertion_decided_oneTrack :
    oneTrack.isOpen = true ∧ 2 ∉ oneTrack.tables.albumIds ∧
      (insertTrack { lostLetter with title := "Rain" } 1 2).run oneTrack =
        (.ok .alreadyPresent, oneTrack) ∧
      (insertTrack { lostLetter with title := "Rain", path := "music/b.mp3" } 1 2).run oneTrack =
        (.error (.constraint "FOREIGN KEY constraint failed"), oneTrack) :=
  ⟨rfl, by decide, (reachable_oneTrack.insertion_decided rfl _ 1 2).1.trans (by rfl),
    (reachable_oneTrack.insertion_decided rfl _ 1 2).1.trans (by rfl)⟩

/-- A store that may only be read does not say so of a track that it holds. -/
theorem insertion_refused_readOnly :
    ∃ s, s.Reachable ∧ s.isOpen = true ∧ s.tables.Holds lostLetter 1 1 ∧
      (insertTrack lostLetter 1 1).run s = (.error (.query .readOnly), s) :=
  ⟨_, reachable_oneTrack.opened true rfl, rfl, by decide, rfl⟩

end Store
end Fonoteca
