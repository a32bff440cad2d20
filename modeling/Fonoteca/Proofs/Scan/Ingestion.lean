import Fonoteca.Proofs.Scan.Completion
import Fonoteca.Proofs.Store.Stepwise

/-!
# What an ingestion adds

* `Track.erased` is a track without the identity that the library gives.
* `Ingested` relates the tables before and after to the tracks that were put in and the tracks that
  were accepted.  One track keeps it (`Ingested.cons`), so a list of them does
  (`ingested_of_populate`).
* **`populate_appends`** : the tracks of the library are then those from before followed by the
  accepted ones.
-/

set_option autoImplicit false

namespace Fonoteca

open Tables (Sound Additions)

/-- The track without its identity. -/
def Track.erased (t : Track) : Track :=
  { t with id := 0 }

/-- A track as the first stages of a scan make them: it has no identity yet, and no blanks around
the name of its artist. -/
structure Track.IsFresh (t : Track) : Prop where
  notPersisted : t.isPersisted = false
  artist : Text.trim t.artist = t.artist

/-! ## One track -/

/-- **Putting in one track** adds it behind all others, or does not change the tracks. -/
theorem Tables.Sound.joined_ingest {t : Tables} (h : Sound t) {track : Track}
    (hfresh : track.IsFresh) :
    ((t.ingest track).1.newTrack track = none ∧ (t.ingest track).2.joined = t.joined) ∨
      ∃ id, (t.ingest track).1.newTrack track = some { track with id } ∧
        (t.ingest track).2.joined = t.joined ++ [track.row id] := by
  obtain ⟨performer, album, u, hadditions, hu, htracks, hknown, hnamed, hingest⟩ :=
    h.resolved track
  have hjoined : u.joined = t.joined :=
    (Additions.extends hadditions).keepsNames.joined_eq h hu htracks
  have hartist : u.performerNamed? track.artist = some performer := by
    rwa [knownPerformer?, hfresh.artist, Option.or_self] at hknown
  rw [hingest, ← hjoined]
  by_cases hany : u.joined.any (u.blocks track performer album) = true
  · rw [Tables.place_of_blocked hany]
    exact .inl ⟨rfl, rfl⟩
  · obtain ⟨hid, hrow⟩ := hu.joined_place_of_clear (hu.performer?_name_of_named hartist)
      (hu.album?_name_of_named hnamed) (by simpa using hany)
    refine .inr ⟨u.nextTrack, ?_, hrow⟩
    simp [hid, Insertion.newTrack, Track.assignId, hfresh.notPersisted]

/-! ## A list of tracks -/

/-- Sound tables got the accepted tracks at the end, which are among the tracks that were put in and
in the same order. -/
structure Ingested (t u : Tables) (tracks accepted : List Track) (report : IngestionReport) :
    Prop where
  sound : Sound u
  joined : u.joined = t.joined ++ accepted.map fun a => a.row a.id
  erased : (accepted.map Track.erased).Sublist (tracks.map Track.erased)
  inserted : report.inserted = accepted.length
  total : report.inserted + report.skipped = tracks.length

namespace Ingested

variable {t u v : Tables} {track : Track} {tracks accepted : List Track}
  {report : IngestionReport}

theorem nil (h : Sound t) : Ingested t t [] [] {} where
  sound := h
  joined := (List.append_nil _).symm
  erased := .slnil
  inserted := rfl
  total := rfl

/-- A track that was there already is passed over. -/
theorem skip (hu : u.joined = t.joined) (h : Ingested u v tracks accepted report) :
    Ingested t v (track :: tracks) accepted { report with skipped := report.skipped + 1 } where
  sound := h.sound
  joined := hu ▸ h.joined
  erased := h.erased.cons _
  inserted := h.inserted
  total := by
    have htotal := h.total
    simp only [List.length_cons]
    omega

/-- A new track is accepted in front of those to come. -/
theorem cons {id : Int} (hu : u.joined = t.joined ++ [track.row id])
    (h : Ingested u v tracks accepted report) :
    Ingested t v (track :: tracks) ({ track with id } :: accepted)
      { report with inserted := report.inserted + 1 } where
  sound := h.sound
  joined := by
    rw [h.joined, hu, List.append_assoc]
    rfl
  erased := h.erased.cons_cons track.erased
  inserted := congrArg (· + 1) h.inserted
  total := by
    have htotal := h.total
    simp only [List.length_cons]
    omega

end Ingested

/-- A store that lets an ingestion through is open and may be written. -/
theorem writable_of_populate {patience : Patience} {track : Track} {tracks accepted : List Track}
    {report : IngestionReport} {s s' : Store} (h : Sound s.tables)
    (hrun : (populate patience (track :: tracks)).run s = ((accepted, .ok report), s')) :
    s.isOpen = true ∧ s.readOnly = false := by
  by_cases hopen : s.isOpen = true
  · by_cases hread : s.readOnly = true
    · rw [Store.run_populate_readOnly h hopen hread] at hrun
      cases hrun
    · exact ⟨hopen, by simpa using hread⟩
  · rw [Store.run_populate_closed (by simpa using hopen)] at hrun
    cases hrun

/-- **A list of tracks** is ingested track by track. -/
theorem ingested_of_populate {tracks accepted : List Track} {report : IngestionReport}
    {s s' : Store} (h : Sound s.tables) (hfresh : ∀ t ∈ tracks, t.IsFresh)
    (hrun : (populate none tracks).run s = ((accepted, .ok report), s')) :
    Ingested s.tables s'.tables tracks accepted report := by
  induction tracks generalizing s accepted report with
  | nil =>
    cases hrun
    exact .nil h
  | cons track tracks ih =>
    obtain ⟨hopen, hwrite⟩ := writable_of_populate h hrun
    have hfirst := Store.run_ingest h hopen hwrite track
    have hsound : Sound (s.tables.ingest track).2 :=
      .additions (h.additions_ingest track) h
    have hnew := h.joined_ingest (hfresh track (.head _))
    generalize (s.tables.ingest track).1.newTrack track = new at hfirst hnew
    have hafter : Patience.after none new = none := by cases new <;> rfl
    obtain ⟨later, rest, hrest⟩ := Store.run_populate
      (s := { s with tables := (s.tables.ingest track).2 }) hsound hopen hwrite
      (Patience.after none new) tracks
    rw [run_populate_cons_ok hfirst hrest] at hrun
    cases hrun
    rw [hafter] at hrest
    have hlater := ih hsound (fun t ht => hfresh t (.tail _ ht)) hrest
    rcases hnew with ⟨rfl, hjoined⟩ | ⟨id, rfl, hjoined⟩
    · exact hlater.skip hjoined
    · exact hlater.cons hjoined

/-- An ingestion changes the tables and nothing else. -/
theorem populate_keeps {tracks accepted : List Track} {report : IngestionReport} {s s' : Store}
    (hrun : (populate none tracks).run s = ((accepted, .ok report), s')) :
    s' = { s with tables := s'.tables } := by
  obtain ⟨u, -, -, hs⟩ := stepwise_populate none tracks s
  have hs' : s' = { s with tables := u } := (congrArg Prod.snd hrun).symm.trans hs
  rw [hs']

/-! ## The tracks of the library -/

/-- The numbers of a row of tracks are of 32 bits, so that it can be read as a track. -/
structure TrackRow.Decodes (r : TrackRow) : Prop where
  number_nonneg : 0 ≤ r.number
  number_le : r.number ≤ Text.Numeral.uint32Max
  year_ge : Text.Numeral.int32Min ≤ r.year
  year_le : r.year ≤ Text.Numeral.int32Max

namespace JoinedRow

theorem decodeNumber_of_fits {n : Int} (h : 0 ≤ n ∧ n ≤ Text.Numeral.uint32Max) :
    decodeNumber n = .ok (UInt32.ofNat n.toNat) := by
  rw [decodeNumber, if_neg (by omega), if_neg (by omega)]

theorem decodeYear_of_fits {n : Int}
    (h : Text.Numeral.int32Min ≤ n ∧ n ≤ Text.Numeral.int32Max) :
    decodeYear n = .ok (Int32.ofInt n) := by
  rw [decodeYear, if_neg (by omega), if_neg (by omega)]

end JoinedRow

theorem TrackRow.Decodes.exists_toTrack {t : Tables} {r : TrackRow} {row : JoinedRow}
    (h : r.Decodes) (hrow : t.Shows r row) : ∃ track, row.toTrack = .ok track := by
  rw [JoinedRow.toTrack,
    JoinedRow.decodeNumber_of_fits (hrow.number ▸ ⟨h.number_nonneg, h.number_le⟩),
    JoinedRow.decodeYear_of_fits (hrow.year ▸ ⟨h.year_ge, h.year_le⟩)]
  exact ⟨_, rfl⟩

/-- Rows that read as tracks one by one read as a list of them. -/
theorem mapM_toTrack {rows : List JoinedRow} (h : ∀ row ∈ rows, ∃ t, row.toTrack = .ok t) :
    ∃ tracks, rows.mapM JoinedRow.toTrack = .ok tracks := by
  induction rows with
  | nil => exact ⟨[], rfl⟩
  | cons row rows ih =>
    obtain ⟨t, ht⟩ := h row (.head _)
    obtain ⟨tracks, htracks⟩ := ih fun r hr => h r (.tail _ hr)
    exact ⟨t :: tracks, by rw [List.mapM_cons, ht, htracks]; rfl⟩

/-- Accepted tracks are read as they were. -/
theorem mapM_toTrack_row (tracks : List Track) :
    (tracks.map fun t => t.row t.id).mapM JoinedRow.toTrack = .ok tracks := by
  induction tracks with
  | nil => rfl
  | cons t tracks ih =>
    rw [List.map_cons, List.mapM_cons, t.toTrack_row, ih]
    rfl

theorem Ingested.readTracks {t u : Tables} {tracks accepted before : List Track}
    {report : IngestionReport} (h : Ingested t u tracks accepted report)
    (hbefore : t.readTracks = .ok before) : u.readTracks = .ok (before ++ accepted) := by
  rw [Tables.readTracks, h.joined, List.mapM_append, ← Tables.readTracks, hbefore,
    mapM_toTrack_row]
  rfl

/-- The identities of the accepted tracks are the numbers of the rows that were added. -/
theorem Ingested.trackIds {t u : Tables} {tracks accepted : List Track}
    {report : IngestionReport} (h : Ingested t u tracks accepted report) (ht : Sound t) :
    u.trackIds = t.trackIds ++ accepted.map (·.id) := by
  rw [← h.sound.joined_ids, ← ht.joined_ids, h.joined, List.map_append, List.map_map]
  rfl

/-- **An ingestion adds the accepted tracks behind those that were there**: every field of them is
read as it was accepted, they are tracks of the list that was put in, in the order of that list, and
their identities ascend above all others.  The report counts them, and the tracks that were there
already. -/
theorem populate_appends {s s' : Store} {tracks accepted : List Track} {report : IngestionReport}
    (hs : s.Reachable) (hopen : s.isOpen = true) (hrows : ∀ r ∈ s.tables.tracks, r.Decodes)
    (hfresh : ∀ t ∈ tracks, t.IsFresh)
    (hrun : (populate none tracks).run s = ((accepted, .ok report), s')) :
    (∃ before, Store.tracks.run s = (.ok before, s) ∧
      Store.tracks.run s' = (.ok (before ++ accepted), s')) ∧
    (accepted.map Track.erased).Sublist (tracks.map Track.erased) ∧
    (accepted.map (·.id)).Pairwise (· < ·) ∧
    (∀ r ∈ s.tables.tracks, ∀ a ∈ accepted, r.id < a.id) ∧
    report.inserted = accepted.length ∧ report.inserted + report.skipped = tracks.length := by
  have hingested := ingested_of_populate hs.sound hfresh hrun
  have hids := hingested.trackIds hs.sound
  have hsorted := hingested.sound.trackIds.sorted
  rw [hids, List.pairwise_append] at hsorted
  obtain ⟨before, hbefore⟩ : ∃ before, s.tables.readTracks = .ok before := by
    refine mapM_toTrack fun row hrow => ?_
    obtain ⟨r, hr, hshows⟩ := hs.sound.mem_joined_iff.1 hrow
    exact (hrows r hr).exists_toTrack hshows
  refine ⟨⟨before, ?_, ?_⟩, hingested.erased, hsorted.2.1, fun r hr a ha => ?_,
    hingested.inserted, hingested.total⟩
  · rw [Store.tracks, Store.run_ask hopen, hbefore]
    rfl
  · have hopen' : s'.isOpen = true := by
      rw [populate_keeps hrun]
      exact hopen
    rw [Store.tracks, Store.run_ask hopen', hingested.readTracks hbefore]
    rfl
  · exact hsorted.2.2 _ (List.mem_map_of_mem hr) _ (List.mem_map_of_mem ha)

/-- A track that the library has under another path is passed over, and a new one is read behind
the one that was there. -/
theorem populate_appends_oneTrack :
    ∃ s', (populate none [{ lostLetter with path := "music/b.mp3" },
        { lostLetter with title := "Snow", path := "music/c.mp3" }]).run Store.oneTrack =
      (([{ lostLetter with title := "Snow", path := "music/c.mp3", id := 2 }],
        .ok { inserted := 1, skipped := 1 }), s') ∧
    ∃ before, Store.tracks.run Store.oneTrack = (.ok before, Store.oneTrack) ∧
      Store.tracks.run s' = (.ok (before ++ [{ lostLetter with
        title := "Snow", path := "music/c.mp3", id := 2 }]), s') := by
  have hrows : ∀ r ∈ Store.oneTrack.tables.tracks, r.Decodes := by
    intro r hr
    rw [List.mem_singleton.1 hr]
    exact ⟨by decide, by decide, by decide, by decide⟩
  have hartist : ∀ t : Track, t.artist = "Iris" → t.id = 0 → t.IsFresh := by
    intro t hartist hid
    exact ⟨by rw [Track.isPersisted, hid]; rfl, by rw [hartist]; rfl⟩
  have hrun : (populate none [{ lostLetter with path := "music/b.mp3" },
        { lostLetter with title := "Snow", path := "music/c.mp3" }]).run Store.oneTrack =
      (([{ lostLetter with title := "Snow", path := "music/c.mp3", id := 2 }],
        .ok { inserted := 1, skipped := 1 }),
        { Store.oneTrack with tables := { Store.oneTrack.tables with
          tracks := Store.oneTrack.tables.tracks ++
            [⟨2, 1, 1, "music/c.mp3", "Snow", 1, 2018, unknown⟩] } }) := by
    change @Eq ((List Track × Except StoreError IngestionReport) × Store) _ _
    decide +kernel
  exact ⟨_, hrun, (populate_appends Store.reachable_oneTrack rfl hrows
    (by simpa using ⟨hartist _ rfl rfl, hartist _ rfl rfl⟩) hrun).1⟩

end Fonoteca
