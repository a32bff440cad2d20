import Fonoteca.Proofs.Store.Filing
import Mathlib.Data.List.Find

/-!
# What becomes of a track that is written back

A track is written back in four parts: it is looked up, its performer and its album are resolved,
and its row is written anew.  Each part is a request of its own, on tables that the parts before
may have extended.

* `Tables.Sound.readTrack_eq` : a track is read from its own row and from the rows that it refers
  to, so that it reads as before wherever these have stayed.
* `Tables.Rewritten` says in terms of rows how the tables change, and what stays as it was.
* **`Tables.Sound.rewritten_restore`** : this is what writing a track back does.  So the track reads
  as it was given, but for the blanks around its artist and for its path
  (`Tables.Rewritten.readTrack_self`), and every other one reads as before
  (`Tables.Rewritten.readTrack_of_ne`).
* **`Store.Reachable.rewriting_decided`** : what a store says to a track that is to be written back,
  and what it does.
-/

set_option autoImplicit false

namespace Fonoteca
namespace Tables

variable {t u : Tables}

/-! ## Reading from rows -/

/-- The row of a track is joined to the same names wherever the names are kept. -/
theorem KeepsNames.join?_eq (h : KeepsNames t u) (ht : Sound t) (hu : Sound u) {r : TrackRow}
    (hr : r ∈ t.tracks) : u.join? r = t.join? r := by
  obtain ⟨row, hrow⟩ := ht.exists_shows hr
  rw [ht.join?_eq_some_iff_shows.2 hrow, hu.join?_eq_some_iff_shows.2 (h.shows hrow)]

theorem isSome_track?_iff {id : Int} : (t.track? id).isSome ↔ id ∈ t.trackIds := by
  simp [track?, trackIds]

namespace Sound

theorem track?_eq_some_iff (h : Sound t) {id : Int} {r : TrackRow} :
    t.track? id = some r ↔ r ∈ t.tracks ∧ r.id = id :=
  find?_id_eq_some_iff h.trackIds

/-- The joined row of a number is that of the row of this number. -/
theorem find?_joined (h : Sound t) (id : Int) :
    t.joined.find? (·.id = id) = (t.track? id).bind t.join? := by
  rw [h.joined_eq, List.find?_filterMap, track?]
  congr 1
  refine List.find?_congr fun r hr => ?_
  obtain ⟨row, hrow⟩ := h.exists_shows hr
  rw [h.join?_eq_some_iff_shows.2 hrow, Option.any_some, hrow.id]

/-- **A track is read from its row**, joined to the rows that it refers to. -/
theorem readTrack_eq (h : Sound t) (id : Int) :
    t.readTrack id = ((t.track? id).bind t.join?).mapM JoinedRow.toTrack := by
  rw [readTrack, h.find?_joined]
  split
  · next row hrow => rw [hrow, Option.mapM_some]; rfl
  · next hrow => rw [hrow, Option.mapM_none]; rfl

/-- A track that is read has the names of the rows that its own row refers to. -/
theorem exists_rows_of_readTrack (h : Sound t) {id : Int} {track : Track}
    (hread : t.readTrack id = .ok (some track)) :
    ∃ r p a, t.track? id = some r ∧ t.performer? r.performer = some p ∧
      t.album? r.album = some a ∧ p.name = track.artist ∧ a.name = track.album ∧
      r.path = track.path := by
  rw [h.readTrack_eq] at hread
  obtain ⟨row, hrow⟩ : ∃ row, (t.track? id).bind t.join? = some row := by
    rw [← Option.isSome_iff_exists, Option.isSome_iff_ne_none]
    intro hnone
    rw [hnone] at hread
    cases hread
  obtain ⟨r, hr, hjoin⟩ := Option.bind_eq_some_iff.1 hrow
  obtain ⟨p, a, hp, ha, rfl⟩ := join?_eq_some_iff.1 hjoin
  rw [hrow, Option.mapM_some] at hread
  obtain ⟨found, hfound, hsome⟩ := bind_eq_ok hread
  obtain ⟨_, -, hfound⟩ := bind_eq_ok hfound
  obtain ⟨_, -, hfound⟩ := bind_eq_ok hfound
  cases hfound
  cases hsome
  exact ⟨r, p, a, hr, hp, ha, rfl, rfl, rfl⟩

end Sound

/-! ## Tables with a track written anew -/

/-- Tables become others by writing a track anew under a path: it is put by the one performer of
its trimmed artist on the one album of its name in its folder, who may both have been added for
that, and nothing else changes. -/
structure Rewritten (t u : Tables) (track : Track) (path : String) : Prop where
  performers : u.performers = t.performers ∨
    u.performers = t.performers ++ [⟨t.nextPerformer, .unknown, Text.trim track.artist⟩]
  albums : u.albums = t.albums ∨
    u.albums = t.albums ++ [⟨t.nextAlbum, track.albumDir, track.album, track.year.toInt⟩]
  persons : u.persons = t.persons
  groups : u.groups = t.groups
  memberships : u.memberships = t.memberships
  trackIds : u.trackIds = t.trackIds
  row : ∃ p ∈ u.performers, ∃ a ∈ u.albums,
    (∀ q ∈ u.performers, q.name = Text.trim track.artist ↔ q = p) ∧
    (∀ b ∈ u.albums, b.directory = track.albumDir ∧ b.name = track.album ↔ b = a) ∧
    u.track? track.id = some { track.tableRow p.id a.id with id := track.id, path }
  others : ∀ id, id ≠ track.id → u.track? id = t.track? id

namespace Rewritten

variable {track : Track} {path : String}

/-- Names and albums are at most put behind the others. -/
theorem keepsNames (h : Rewritten t u track path) : KeepsNames t u where
  names := by
    rcases h.performers with hsame | hadded
    · rw [names, names, hsame]
    · rw [names, names, hadded]
      exact (List.prefix_append _ _).map _
  albums := by
    rcases h.albums with hsame | hadded
    · rw [hsame]
    · rw [hadded]
      exact List.prefix_append _ _

/-- **The track reads as it was given**, but for the blanks around its artist and for its path. -/
theorem readTrack_self (h : Rewritten t u track path) (hu : Sound u) :
    u.readTrack track.id =
      .ok (some { track with artist := Text.trim track.artist, path }) := by
  obtain ⟨p, hp, a, ha, hname, hfiled, hrow⟩ := h.row
  have hjoin : u.join? { track.tableRow p.id a.id with id := track.id, path } =
      some ({ track with artist := Text.trim track.artist, path }.row track.id) := by
    refine join?_eq_some_iff.2 ⟨p, a, hu.performer?_eq_some_iff.2 ⟨hp, rfl⟩,
      hu.album?_eq_some_iff.2 ⟨ha, rfl⟩, ?_⟩
    rw [(hname p hp).2 rfl, ((hfiled a ha).2 rfl).2]
    rfl
  rw [hu.readTrack_eq, hrow, Option.bind_some, hjoin, Option.mapM_some, Track.toTrack_row]
  rfl

/-- **Every other track reads as before.** -/
theorem readTrack_of_ne (h : Rewritten t u track path) (ht : Sound t) (hu : Sound u) {id : Int}
    (hid : id ≠ track.id) : u.readTrack id = t.readTrack id := by
  rw [hu.readTrack_eq, ht.readTrack_eq, h.others id hid]
  congr 1
  refine Option.bind_congr fun r hr => ?_
  exact h.keepsNames.join?_eq ht hu (ht.track?_eq_some_iff.1 hr).1

/-- A performer who has the name of the artist already stays that of the track. -/
theorem performer_eq (h : Rewritten t u track path) {r q : TrackRow}
    (hname : (t.performer? r.performer).map (·.name) = some (Text.trim track.artist))
    (hq : u.track? track.id = some q) : q.performer = r.performer := by
  obtain ⟨p, -, a, -, hone, -, hrow⟩ := h.row
  obtain rfl := Option.some.inj (hrow.symm.trans hq)
  obtain ⟨p', hp', hp'name⟩ := Option.map_eq_some_iff.1 (h.keepsNames.performer?_name hname)
  have hid : p'.id = r.performer := by simpa using List.find?_some hp'
  obtain rfl := (hone p' (List.mem_of_find?_eq_some hp')).1 hp'name
  exact hid

/-- An album that has the folder and the name already stays that of the track. -/
theorem album_eq (h : Rewritten t u track path) {r q : TrackRow} {b : AlbumRow}
    (hb : t.album? r.album = some b) (hfolder : b.directory = track.albumDir)
    (hname : b.name = track.album) (hq : u.track? track.id = some q) : q.album = r.album := by
  obtain ⟨p, -, a, -, -, hone, hrow⟩ := h.row
  obtain rfl := Option.some.inj (hrow.symm.trans hq)
  have hb' := h.keepsNames.album? hb
  have hid : b.id = r.album := by simpa using List.find?_some hb'
  obtain rfl := (hone b (List.mem_of_find?_eq_some hb')).1 ⟨hfolder, hname⟩
  exact hid

end Rewritten

/-! ## Writing a track back -/

theorem performers_performerFor_cases (t : Tables) (name : String) :
    (t.performerFor name).2.performers = t.performers ∨
      (t.performerFor name).2.performers =
        t.performers ++ [⟨t.nextPerformer, .unknown, Text.trim name⟩] := by
  rw [performerFor]
  split
  · exact .inl rfl
  · exact .inr rfl

theorem albums_albumFor_cases (t : Tables) (directory name : String) (year : Int32) :
    (t.albumFor directory name year).2.albums = t.albums ∨
      (t.albumFor directory name year).2.albums =
        t.albums ++ [⟨t.nextAlbum, directory, name, year.toInt⟩] := by
  rw [albumFor]
  split
  · exact .inl rfl
  · exact .inr rfl

/-- Resolving a performer leaves the albums alone. -/
@[simp] theorem albums_performerFor (t : Tables) (name : String) :
    (t.performerFor name).2.albums = t.albums := by
  rw [performerFor]
  split <;> rfl

/-- The tables with the performer and the album of a track. -/
def withNamesOf (t : Tables) (track : Track) : Tables :=
  ((t.performerFor track.artist).2.albumFor track.albumDir track.album track.year).2

section withNamesOf

variable (t : Tables) (track : Track)

theorem additions_withNamesOf : Additions t (t.withNamesOf track) :=
  (t.additions_performerFor track.artist).trans (additions_albumFor _ _ _ _)

theorem sameBut_withNamesOf : SameBut withoutTracks t (t.withNamesOf track) :=
  (sameBut_albumFor _ _ _ _).trans (sameBut_performerFor t track.artist)

@[simp] theorem tracks_withNamesOf : (t.withNamesOf track).tracks = t.tracks := by
  rw [withNamesOf, tracks_albumFor, tracks_performerFor]

@[simp] theorem trackIds_withNamesOf : (t.withNamesOf track).trackIds = t.trackIds := by
  rw [trackIds, tracks_withNamesOf, trackIds]

@[simp] theorem track?_withNamesOf (id : Int) :
    (t.withNamesOf track).track? id = t.track? id := by
  rw [track?, tracks_withNamesOf, track?]

theorem performers_withNamesOf_cases :
    (t.withNamesOf track).performers = t.performers ∨
      (t.withNamesOf track).performers =
        t.performers ++ [⟨t.nextPerformer, .unknown, Text.trim track.artist⟩] := by
  rw [withNamesOf, performers_albumFor]
  exact t.performers_performerFor_cases track.artist

theorem albums_withNamesOf_cases :
    (t.withNamesOf track).albums = t.albums ∨
      (t.withNamesOf track).albums =
        t.albums ++ [⟨t.nextAlbum, track.albumDir, track.album, track.year.toInt⟩] := by
  have hcases := (t.performerFor track.artist).2.albums_albumFor_cases track.albumDir track.album
    track.year
  rwa [nextAlbum, albums_performerFor] at hcases

theorem performerNamed?_withNamesOf :
    (t.withNamesOf track).performerNamed? (Text.trim track.artist) =
      some (t.performerFor track.artist).1 := by
  rw [performerNamed?, withNamesOf, performers_albumFor]
  exact t.performerNamed?_performerFor track.artist

end withNamesOf

/-- Every row keeps its number when one is written anew. -/
@[simp] theorem trackIds_replaceTrack (t : Tables) (track : Track) (performer album : Int) :
    (t.replaceTrack track performer album).trackIds = t.trackIds :=
  map_map_eq (by intro r; split <;> rfl) _

/-- The row of a track where one was written anew. -/
theorem track?_replaceTrack (t : Tables) (track : Track) (performer album id : Int) :
    (t.replaceTrack track performer album).track? id = (t.track? id).map fun r =>
      if r.id = track.id then
        { track.tableRow performer album with id := r.id, path := r.path }
      else r := by
  rw [track?, replaceTrack, List.find?_map]
  congr 1
  refine List.find?_congr fun r _ => ?_
  rw [Function.comp_apply]
  split <;> rfl

namespace Sound

/-- The performer of a name is the one that is found by it. -/
theorem exists_performer_of_named (h : Sound t) {name : String} {id : Int}
    (hid : t.performerNamed? name = some id) :
    ∃ p ∈ t.performers, p.id = id ∧ ∀ q ∈ t.performers, q.name = name ↔ q = p := by
  obtain ⟨p, hp, rfl⟩ := Option.map_eq_some_iff.1 hid
  have hmem := List.mem_of_find?_eq_some hp
  have hname : p.name = name := by simpa using List.find?_some hp
  refine ⟨p, hmem, rfl, fun q hq => ⟨fun hqname => ?_, fun hqp => hqp ▸ hname⟩⟩
  exact List.inj_on_of_nodup_map h.performerNames hq hmem (hqname.trans hname.symm)

/-- The album of a name in a folder is the one that is found by them. -/
theorem exists_album_of_named (h : Sound t) {directory name : String} {id : Int}
    (hid : t.albumNamed? directory name = some id) :
    ∃ a ∈ t.albums, a.id = id ∧
      ∀ b ∈ t.albums, b.directory = directory ∧ b.name = name ↔ b = a := by
  obtain ⟨a, ha, rfl⟩ := Option.map_eq_some_iff.1 hid
  have hmem := List.mem_of_find?_eq_some ha
  have hname : a.directory = directory ∧ a.name = name := by simpa using List.find?_some ha
  refine ⟨a, hmem, rfl, fun b hb => ⟨fun hbname => ?_, fun hba => hba ▸ hname⟩⟩
  refine List.inj_on_of_nodup_map h.albumNames hb hmem (Prod.ext ?_ ?_)
  · exact hbname.1.trans hname.1.symm
  · exact hbname.2.trans hname.2.symm

/-- **What writing a track back does** to the rows of the tables. -/
theorem rewritten_restore (h : Sound t) {track : Track} {r : TrackRow}
    (hrow : t.track? track.id = some r) : Rewritten t (t.restore track) track r.path := by
  have hnames : Sound (t.withNamesOf track) := .additions (t.additions_withNamesOf track) h
  have hpeople : (t.withNamesOf track).withoutTracks = t.withoutTracks :=
    t.sameBut_withNamesOf track
  obtain ⟨p, hp, hpid, hpname⟩ :=
    hnames.exists_performer_of_named (t.performerNamed?_withNamesOf track)
  obtain ⟨a, ha, haid, hafiled⟩ := hnames.exists_album_of_named
    (albumNamed?_albumFor _ track.albumDir track.album track.year)
  have hfound : ∀ id, (t.restore track).track? id = (t.track? id).map fun r =>
      if r.id = track.id then { track.tableRow p.id a.id with id := r.id, path := r.path }
      else r := fun id => by
    rw [hpid, haid, ← t.track?_withNamesOf track]
    exact track?_replaceTrack _ track _ _ id
  exact
    { performers := t.performers_withNamesOf_cases track
      albums := t.albums_withNamesOf_cases track
      persons := congrArg (·.persons) hpeople
      groups := congrArg (·.groups) hpeople
      memberships := congrArg (·.memberships) hpeople
      trackIds := (trackIds_replaceTrack _ track _ _).trans (t.trackIds_withNamesOf track)
      row := by
        have hid : r.id = track.id := (h.track?_eq_some_iff.1 hrow).2
        refine ⟨p, hp, a, ha, hpname, hafiled, ?_⟩
        rw [hfound, hrow, Option.map_some, if_pos hid, hid]
      others := fun id hid => by
        refine (hfound id).trans ((Option.map_congr fun q hq => if_neg ?_).trans Option.map_id')
        rw [(h.track?_eq_some_iff.1 hq).2]
        exact hid }

theorem restore (h : Sound t) (track : Track) : Sound (t.restore track) := by
  have hnames : Sound (t.withNamesOf track) := .additions (t.additions_withNamesOf track) h
  refine hnames.replaceTrack ?_ (album?_of_albumNamed? (albumNamed?_albumFor _ _ _ _))
  exact performer?_of_performerNamed? (t.performerNamed?_withNamesOf track)

/-- A track that is there and can be read is written anew under the path that it has. -/
theorem rewritten_of_readTrack (h : Sound t) {track old : Track}
    (hold : t.readTrack track.id = .ok (some old)) :
    Rewritten t (t.restore track) track old.path := by
  obtain ⟨r, hr⟩ := Option.isSome_iff_exists.1 (h.track?_of_readTrack hold)
  obtain ⟨hmem, hid⟩ := h.track?_eq_some_iff.1 hr
  rw [← (h.of_readTrack hold).2 r hmem hid]
  exact h.rewritten_restore hr

end Sound
end Tables

namespace Store

variable {s : Store}

/-- A track that can be read is written back. -/
theorem run_updateTrack (h : Tables.Sound s.tables) (hopen : s.isOpen = true) {track old : Track}
    (hold : s.tables.readTrack track.id = .ok (some old)) :
    (updateTrack track).run s =
      if s.readOnly then (.error (.query .readOnly), s)
      else (.ok (), { s with tables := s.tables.restore track }) := by
  have hread : (track? track.id).run s = (.ok (some old), s) := by
    refine (run_ask hopen _).trans ?_
    rw [hold]
    rfl
  have hrestore : (updateTrack track).run s = (restoreTrack track).run s :=
    StoreM.run_bind_ok hread _
  rw [hrestore]
  split_ifs with hreadOnly
  · exact StoreM.run_bind_error (run_change_readOnly hopen hreadOnly _) _
  · exact run_restoreTrack hopen (by simpa using hreadOnly) (h.track?_of_readTrack hold)

/-- A track that is not there is not written back. -/
theorem run_updateTrack_of_missing (h : Tables.Sound s.tables) (hopen : s.isOpen = true)
    {track : Track} (hmissing : track.id ∉ s.tables.trackIds) :
    (updateTrack track).run s = (.error (.notFound .track track.id), s) := by
  have hnone : s.tables.track? track.id = none := by
    rwa [← Option.not_isSome_iff_eq_none, Tables.isSome_track?_iff]
  have hread : (track? track.id).run s = (.ok none, s) := by
    refine (run_ask hopen _).trans ?_
    rw [h.readTrack_eq, hnone]
    rfl
  exact StoreM.run_bind_ok hread _

/-- **What becomes of a track that is written back.**  It is refused if there is no track of its
number.  If there is one that can be read, a store that may only be read refuses it as well, and any
other store writes it: the track then reads as it was given, by the trimmed name of its artist and
under the path that it had, every other one reads as before, and the rows are rewritten accordingly
and otherwise stay. -/
theorem Reachable.rewriting_decided (hs : s.Reachable) (hopen : s.isOpen = true) (track : Track) :
    (track.id ∉ s.tables.trackIds →
      (updateTrack track).run s = (.error (.notFound .track track.id), s)) ∧
    ∀ old, (track? track.id).run s = (.ok (some old), s) →
      (s.readOnly = true → (updateTrack track).run s = (.error (.query .readOnly), s)) ∧
      (s.readOnly = false → ∃ s', (updateTrack track).run s = (.ok (), s') ∧
        s' = { s with tables := s'.tables } ∧
        (track? track.id).run s' =
          (.ok (some { track with artist := Text.trim track.artist, path := old.path }), s') ∧
        (∀ id, id ≠ track.id → ((track? id).run s').1 = ((track? id).run s).1) ∧
        s.tables.Rewritten s'.tables track old.path) := by
  have hsound := hs.sound
  refine ⟨run_updateTrack_of_missing hsound hopen, fun old hold => ?_⟩
  have hold' : s.tables.readTrack track.id = .ok (some old) :=
    classify_eq_ok_iff.1 (congrArg Prod.fst ((run_ask hopen _).symm.trans hold))
  have hrun := run_updateTrack hsound hopen hold'
  refine ⟨fun hread => hrun.trans (if_pos hread), fun hwrite => ?_⟩
  have hrewritten := hsound.rewritten_of_readTrack hold'
  have hsound' := hsound.restore track
  have hask (id : Int) : (track? id).run { s with tables := s.tables.restore track } =
      (classify ((s.tables.restore track).readTrack id),
        { s with tables := s.tables.restore track }) :=
    run_ask (s := { s with tables := s.tables.restore track }) hopen _
  refine ⟨_, hrun.trans (if_neg (by simp [hwrite])), rfl, ?_, fun id hid => ?_, hrewritten⟩
  · rw [hask, hrewritten.readTrack_self hsound']
    rfl
  · rw [hask, hrewritten.readTrack_of_ne hsound hsound' hid, track?, run_ask hopen]

/-- A track is given another artist, whose name has blanks around it, and keeps its album although
its year has changed. -/
theorem rewriting_decided_oneTrack :
    ∃ s', (updateTrack { lostLetter with artist := " Nova ", year := 1994, id := 1 }).run oneTrack =
        (.ok (), s') ∧
      (track? 1).run s' =
        (.ok (some { lostLetter with artist := "Nova", year := 1994, id := 1 }), s') := by
  have hread : (track? 1).run oneTrack = (.ok (some { lostLetter with id := 1 }), oneTrack) := by
    change @Eq (Except StoreError (Option Track) × Store) _ _
    decide +kernel
  have h := (reachable_oneTrack.rewriting_decided rfl
    { lostLetter with artist := " Nova ", year := 1994, id := 1 }).2 _ hread
  obtain ⟨s', hrun, -, hself, -⟩ := h.2 rfl
  have hartist : Text.trim " Nova " = "Nova" := by decide +kernel
  rw [hartist] at hself
  exact ⟨s', hrun, hself⟩

/-- A store that may only be read does not write a track back that it can read. -/
theorem rewriting_refused_readOnly :
    ∃ s, s.Reachable ∧ s.isOpen = true ∧
      (track? 1).run s = (.ok (some { lostLetter with id := 1 }), s) ∧
      (updateTrack { lostLetter with id := 1 }).run s = (.error (.query .readOnly), s) := by
  refine ⟨_, reachable_oneTrack.opened true rfl, rfl, ?_, ?_⟩
  · change @Eq (Except StoreError (Option Track) × Store) _ _
    decide +kernel
  · change @Eq (Except StoreError Unit × Store) _ _
    decide +kernel

end Store
end Fonoteca
