import Fonoteca.Proofs.Store.Extension

/-!
# Inserting a track into sound tables

* `Track.row` is the joined row of a track that has been stored, and reads as that track again
  (`Track.toTrack_row`).
* `Tables.place` is an insertion without its faults, and **`Tables.Sound.insertTrack_eq`** says that
  there are none: what the check of an insertion lets through, the constraints of the table admit.
* **`Tables.Sound.joined_place_of_clear`** : an insertion puts the row of the track at the end of
  the joined rows, unless a row is in the way (`Tables.place_of_blocked`).
-/

set_option autoImplicit false

namespace Fonoteca

/-! ## Tracks as rows -/

/-- The joined row of a track that is stored under a number. -/
def Track.row (t : Track) (id : Int) : JoinedRow :=
  ⟨id, t.artist, t.title, t.album, t.number.toNat, t.year.toInt, t.genre, t.path⟩

theorem JoinedRow.decodeNumber_toNat (n : UInt32) : decodeNumber n.toNat = .ok n := by
  have hlt : n.toNat < 2 ^ 32 := n.toNat_lt
  have hmax : Text.Numeral.uint32Max = 2 ^ 32 - 1 := rfl
  rw [decodeNumber, if_neg (by omega), if_neg (by omega), Int.toNat_natCast, UInt32.ofNat_toNat]

theorem JoinedRow.decodeYear_toInt (n : Int32) : decodeYear n.toInt = .ok n := by
  have hle : n.toInt < 2 ^ 31 := n.toInt_lt
  have hge : -2 ^ 31 ≤ n.toInt := n.le_toInt
  have hmin : Text.Numeral.int32Min = -2 ^ 31 := rfl
  have hmax : Text.Numeral.int32Max = 2 ^ 31 - 1 := rfl
  rw [decodeYear, if_neg (by omega), if_neg (by omega), Int32.ofInt_toInt]

/-- A track that is stored is read as it was. -/
theorem Track.toTrack_row (t : Track) (id : Int) :
    (t.row id).toTrack = .ok { t with id } := by
  simp only [JoinedRow.toTrack, row, JoinedRow.decodeNumber_toNat, JoinedRow.decodeYear_toInt]
  rfl

namespace Tables

/-- Adds a track by the given performer on the given album, unless a row is in the way. -/
def place (t : Tables) (track : Track) (performer album : Int) : Insertion × Tables :=
  if t.joined.any (t.blocks track performer album) then (.alreadyPresent, t)
  else (.inserted t.nextTrack, (t.pushTrack (track.tableRow performer album)).2)

/-- A row that is in the way leaves the tables as they are. -/
theorem place_of_blocked {t : Tables} {track : Track} {performer album : Int}
    (h : t.joined.any (t.blocks track performer album) = true) :
    t.place track performer album = (.alreadyPresent, t) :=
  if_pos h

namespace Sound

variable {t : Tables}

/-- A performer who is found by name has this name. -/
theorem performer?_name_of_named (h : Sound t) {name : String} {id : Int}
    (hid : t.performerNamed? name = some id) : (t.performer? id).map (·.name) = some name := by
  obtain ⟨p, hp, rfl⟩ := Option.map_eq_some_iff.1 hid
  rw [h.performer?_eq_some_iff.2 ⟨List.mem_of_find?_eq_some hp, rfl⟩, Option.map_some]
  simpa using List.find?_some hp

/-- An album that is found by name has this name. -/
theorem album?_name_of_named (h : Sound t) {directory name : String} {id : Int}
    (hid : t.albumNamed? directory name = some id) :
    (t.album? id).map (·.name) = some name := by
  obtain ⟨a, ha, rfl⟩ := Option.map_eq_some_iff.1 hid
  have hname : a.directory = directory ∧ a.name = name := by simpa using List.find?_some ha
  rw [h.album?_eq_some_iff.2 ⟨List.mem_of_find?_eq_some ha, rfl⟩, Option.map_some, hname.2]

/-! ## The insertion and the constraints -/

/-- A track that no row is in the way of has a new path. -/
theorem path_ne_of_clear (h : Sound t) {track : Track} {performer album : Int}
    (hclear : t.joined.any (t.blocks track performer album) = false) :
    ∀ r ∈ t.tracks, r.path ≠ track.path := by
  intro r hr hpath
  obtain ⟨row, hrow⟩ := h.exists_shows hr
  have hblocks := (List.any_eq_false.1 hclear) row (h.mem_joined_iff.2 ⟨r, hr, hrow⟩)
  exact hblocks (by simp [blocks, hrow.path, hpath])

/-- **An insertion is never refused**, if its performer and its album are there: what its check lets
through, the constraints of the table admit. -/
theorem insertTrack_eq (h : Sound t) (track : Track) {performer album : Int}
    (hperformer : (t.performer? performer).isSome) (halbum : (t.album? album).isSome) :
    t.insertTrack track performer album = .ok (t.place track performer album) := by
  rw [insertTrack, place]
  split
  · rfl
  · next hany =>
    have hpath := h.path_ne_of_clear (by simpa using hany)
    have hrefs : (t.performer? performer).isSome ∧ (t.album? album).isSome :=
      ⟨hperformer, halbum⟩
    simp only [addTrack, required, ok_bind, demand_of_true _ hpath, demand_of_true _ hrefs]
    rfl

/-- An insertion adds to the tables, or leaves them alone. -/
theorem additions_place (h : Sound t) (track : Track) {performer album : Int}
    (hperformer : (t.performer? performer).isSome) (halbum : (t.album? album).isSome) :
    Additions t (t.place track performer album).2 :=
  additions_of_insertTrack (h.insertTrack_eq track hperformer halbum)

/-! ## The row of an insertion -/

/-- A track that is added shows behind all others. -/
theorem joined_pushTrack {r : TrackRow} {row : JoinedRow} (h : Sound t)
    (h' : Sound (t.pushTrack r).2) (hrow : t.join? { r with id := t.nextTrack } = some row) :
    (t.pushTrack r).2.joined = t.joined ++ [row] := by
  have hjoin : (t.pushTrack r).2.join? = t.join? := rfl
  have htracks : (t.pushTrack r).2.tracks = t.tracks ++ [{ r with id := t.nextTrack }] := rfl
  rw [h'.joined_eq, h.joined_eq, hjoin, htracks, List.filterMap_append]
  simp [hrow]

/-- **What an insertion does** to the joined rows if none of them is in the way, for a performer and
an album of known names. -/
theorem joined_place_of_clear (h : Sound t) {track : Track} {performer album : Int}
    {artist name : String} (hartist : (t.performer? performer).map (·.name) = some artist)
    (halbum : (t.album? album).map (·.name) = some name)
    (hclear : t.joined.any (t.blocks track performer album) = false) :
    (t.place track performer album).1 = .inserted t.nextTrack ∧
      (t.place track performer album).2.joined =
        t.joined ++ [{ track.row t.nextTrack with artist, album := name }] := by
  obtain ⟨p, hp, rfl⟩ := Option.map_eq_some_iff.1 hartist
  obtain ⟨a, ha, rfl⟩ := Option.map_eq_some_iff.1 halbum
  have h' : Sound (t.place track performer album).2 :=
    .additions (h.additions_place track (by simp [hp]) (by simp [ha])) h
  rw [place, if_neg (by simp [hclear])] at h' ⊢
  exact ⟨rfl, h.joined_pushTrack h' (join?_eq_some_iff.2 ⟨p, a, hp, ha, rfl⟩)⟩

end Sound
end Tables
end Fonoteca
