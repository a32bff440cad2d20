import Fonoteca.Proofs.Scan.Completion

/-!
# Ingesting again

A track that was put in is passed over ever after, and nothing is added for it, be it that it was
accepted then or that another row was in its way.

* `Tables.Has` says why a track is passed over: its performer and its album are found without adding
  anything, and a row is in its way.  Putting a track in makes it so (`Tables.Sound.has_ingest`),
  and a library that only grows keeps it so (`Tables.Has.extends`).
* `Request.keepsLibrary` are the requests that at most add to a library, or open it again.
* **`Store.Reachable.reingests`** : what was ingested before is passed over as a whole.
-/

set_option autoImplicit false

namespace Fonoteca

open Tables (Sound Additions Extends)

namespace Tables

/-! ## What is passed over -/

/-- A track's performer and album are found, and a row is in its way. -/
def Has (t : Tables) (track : Track) : Prop :=
  ∃ performer album, t.knownPerformer? track.artist = some performer ∧
    t.albumNamed? track.albumDir track.album = some album ∧
    ∃ row ∈ t.joined, t.blocks track performer album row = true

/-- **A track that the library has is passed over**, and nothing is added for it. -/
theorem Has.ingest {t : Tables} {track : Track} (h : t.Has track) :
    t.ingest track = (.alreadyPresent, t) := by
  obtain ⟨performer, album, hperformer, halbum, row, hrow, hblocks⟩ := h
  rw [Tables.ingest, findPerformer_of_known hperformer, albumFor_of_named _ halbum,
    place_of_blocked (List.any_eq_true.2 ⟨row, hrow, hblocks⟩)]

/-- **What the library has it keeps** as long as it only grows. -/
theorem Has.extends {t u : Tables} {track : Track} (h : t.Has track) (hu : Extends t u)
    (ht : Sound t) (hsound : Sound u) : u.Has track := by
  obtain ⟨performer, album, hperformer, halbum, row, hrow, hblocks⟩ := h
  exact ⟨performer, album, hu.knownPerformer? hperformer, hu.keepsNames.albumNamed? halbum, row,
    hu.mem_joined ht hsound hrow, hu.keepsNames.blocks hblocks⟩

namespace Sound

variable {t : Tables}

/-- **A track that was put in is had**: it has been given a row, or another row was in its way. -/
theorem has_ingest (h : Sound t) (track : Track) : (t.ingest track).2.Has track := by
  have hsound : Sound (t.ingest track).2 := .additions (h.additions_ingest track) h
  obtain ⟨performer, album, u, -, -, -, hknown, hnamed, hingest⟩ := h.resolved track
  rw [hingest, place] at hsound ⊢
  split at hsound
  · next hany =>
    rw [if_pos hany]
    obtain ⟨row, hrow, hblocks⟩ := List.any_eq_true.1 hany
    exact ⟨performer, album, hknown, hnamed, row, hrow, hblocks⟩
  · next hany =>
    rw [if_neg hany]
    -- the row of the track itself is in the way of the track from now on
    have hmem : { track.tableRow performer album with id := u.nextTrack } ∈
        (u.pushTrack (track.tableRow performer album)).2.tracks :=
      List.mem_append_right _ (List.mem_singleton_self _)
    obtain ⟨row, hshows⟩ := hsound.exists_shows hmem
    refine ⟨performer, album, hknown, hnamed, row, hsound.mem_joined_iff.2 ⟨_, hmem, hshows⟩, ?_⟩
    simp [blocks, hshows.path, Track.tableRow]

/-- **Whatever is in a list of tracks is had** once the list was put in. -/
theorem has_ingestAll (h : Sound t) {tracks : List Track} {track : Track} (htrack : track ∈ tracks) :
    (t.ingestAll tracks).Has track := by
  induction tracks generalizing t with
  | nil => cases htrack
  | cons first tracks ih =>
    have hfirst : Sound (t.ingest first).2 := .additions (h.additions_ingest first) h
    rcases List.mem_cons.1 htrack with rfl | htrack
    · exact (h.has_ingest track).extends (Additions.extends (hfirst.additions_ingestAll tracks))
        hfirst (.additions (hfirst.additions_ingestAll tracks) hfirst)
    · exact ih hfirst htrack

end Sound
end Tables

variable {s : Store}

/-- Tracks that the library has are passed over one by one. -/
theorem Store.run_populate_of_has (h : Sound s.tables) (hopen : s.isOpen = true)
    (hwrite : s.readOnly = false) (patience : Patience) {tracks : List Track}
    (htracks : ∀ track ∈ tracks, s.tables.Has track) :
    (populate patience tracks).run s = (([], .ok { skipped := tracks.length }), s) := by
  induction tracks with
  | nil => rfl
  | cons track tracks ih =>
    have hfirst : (Fonoteca.ingest track).run s = (.ok none, s) := by
      rw [run_ingest h hopen hwrite track, (htracks track (.head _)).ingest]
      rfl
    have hrest := ih fun track htrack => htracks track (.tail _ htrack)
    rw [run_populate_cons_ok hfirst hrest]
    rfl

/-! ## What may happen in between -/

/-- Whether a request at most adds to the library, or opens one again that is not in memory. -/
def Request.keepsLibrary (inMemory : Bool) : Request → Bool
  | .reopen => !inMemory
  | request => request.isAddition

/-- An open store is extended and stays as it is otherwise. -/
theorem additions_of_keepsLibrary (hopen : s.isOpen = true) {request : Request}
    (hrequest : request.keepsLibrary s.inMemory = true) :
    ∃ u, Additions s.tables u ∧ (request.run.run s).2 = { s with tables := u } := by
  by_cases hreopen : request = .reopen
  · subst hreopen
    have hdisk : s.inMemory = false := by simpa [Request.keepsLibrary] using hrequest
    refine ⟨s.tables, .refl, (congrArg Prod.snd (run_reopen s)).trans ?_⟩
    simp [hdisk, hopen]
  · have hadd : request.isAddition = true := by
      cases request with
      | reopen => exact absurd rfl hreopen
      | _ => exact hrequest
    obtain ⟨u, hu, -, hs⟩ := stepwise_addition hadd s
    exact ⟨u, hu, hs⟩

/-- So is it by a history of such requests. -/
theorem additions_of_runAll (hopen : s.isOpen = true) {requests : List Request}
    (hrequests : ∀ request ∈ requests, request.keepsLibrary s.inMemory = true) :
    ∃ u, Additions s.tables u ∧ ((Request.runAll requests).run s).2 = { s with tables := u } := by
  induction requests generalizing s with
  | nil => exact ⟨s.tables, .refl, rfl⟩
  | cons request requests ih =>
    obtain ⟨u, hu, hs⟩ := additions_of_keepsLibrary hopen (hrequests request (.head _))
    obtain ⟨v, hv, hs'⟩ := ih (s := { s with tables := u }) hopen
      fun request hrequest => hrequests request (.tail _ hrequest)
    refine ⟨v, hu.trans hv, ?_⟩
    rw [Request.runAll_cons]
    exact (congrArg (fun s₁ => ((Request.runAll requests).run s₁).2) hs).trans hs'

/-! ## The second ingestion -/

/-- **Ingesting again does nothing.**  Once tracks were put into an open store, and whatever was
then added to it, each list of some of these tracks is passed over as a whole, and the store stays
as it is, performers and albums included.  A store that may only be read refuses such a list as it
refused the first. -/
theorem Store.Reachable.reingests {s s₁ s₂ : Store} (hs : s.Reachable) (hopen : s.isOpen = true)
    {patience : Patience} {tracks : List Track}
    {result : List Track × Except StoreError IngestionReport}
    (hfirst : (populate patience tracks).run s = (result, s₁)) {between : List Request}
    (hbetween : ∀ request ∈ between, request.keepsLibrary s.inMemory = true)
    {answers : List Answer} (hlater : (Request.runAll between).run s₁ = (answers, s₂))
    {again : List Track} (hagain : ∀ track ∈ again, track ∈ tracks) (patience' : Patience) :
    (s.readOnly = false → (populate patience' again).run s₂ =
      (([], .ok { inserted := 0, skipped := again.length }), s₂)) ∧
    (s.readOnly = true → again ≠ [] →
      (populate patience' again).run s₂ = (([], .error (.query .readOnly)), s₂)) := by
  obtain ⟨t, ht, hs₁⟩ : ∃ t, Additions s.tables t ∧ s₁ = { s with tables := t } := by
    obtain ⟨t, ht, -, hs₁⟩ := stepwise_populate patience tracks s
    exact ⟨t, ht, by simpa only [show populate patience tracks s = _ from hfirst] using hs₁⟩
  have hsound : Sound t := .additions ht hs.sound
  obtain ⟨u, hu, hs₂⟩ : ∃ u, Additions t u ∧ s₂ = { s with tables := u } := by
    subst hs₁
    simpa only [hlater] using additions_of_runAll (s := { s with tables := t }) hopen hbetween
  have hsound' : Sound u := .additions hu hsound
  subst hs₁ hs₂
  refine ⟨fun hwrite => ?_, fun hread hne => ?_⟩
  · obtain ⟨accepted, report, hrun⟩ := run_populate hs.sound hopen hwrite patience tracks
    rw [hfirst] at hrun
    have hall : t = s.tables.ingestAll tracks := congrArg (·.2.tables) hrun
    refine run_populate_of_has (s := { s with tables := u }) hsound' hopen hwrite patience'
      fun track htrack => ?_
    have hhas := hs.sound.has_ingestAll (hagain track htrack)
    rw [← hall] at hhas
    exact hhas.extends (Additions.extends hu) hsound hsound'
  · obtain ⟨track, rest, rfl⟩ := List.exists_cons_of_ne_nil hne
    exact run_populate_readOnly (s := { s with tables := u }) hsound' hopen hread patience' track
      rest

/-- A track whose artist has blanks around the name, and one that is there already under another
path, are passed over after more was added and the library was opened again. -/
theorem Store.reingests_oneTrack :
    ∃ s₁ s₂, ((populate none [{ lostLetter with artist := " Nova ", path := "music/n.mp3" },
        { lostLetter with path := "music/b.mp3" }]).run oneTrack).2 = s₁ ∧
      ((Request.runAll [.setKind 1 .person, .resolvePerformer "Bo", .reopen]).run s₁).2 = s₂ ∧
      (populate none [{ lostLetter with path := "music/b.mp3" },
        { lostLetter with artist := " Nova ", path := "music/n.mp3" },
        { lostLetter with path := "music/b.mp3" }]).run s₂ =
        (([], .ok { inserted := 0, skipped := 3 }), s₂) :=
  ⟨_, _, rfl, rfl, (reachable_oneTrack.reingests rfl rfl (by decide) rfl (by simp) none).1 rfl⟩

/-- **Not every ingestion can be repeated**: a store that may only be read refuses a track that it
has, as often as it is put in. -/
theorem Store.refuses_again :
    ∃ s s₁ : Store, s.Reachable ∧ s.isOpen = true ∧ s.tables.Has lostLetter ∧
      ((populate none [lostLetter]).run s).2 = s₁ ∧
      (populate none [lostLetter]).run s₁ = (([], .error (.query .readOnly)), s₁) := by
  have hs := reachable_oneTrack.opened true rfl
  have hrefused := run_populate_readOnly hs.sound rfl rfl none lostLetter []
  have hhas : oneTrack.tables.Has lostLetter := by
    refine ⟨1, 1, by decide +kernel, by decide +kernel, ?_⟩
    rw [joined_oneTrack]
    exact ⟨_, .head _, by decide +kernel⟩
  exact ⟨_, _, hs, rfl, hhas, congrArg Prod.snd hrefused, hrefused⟩

end Fonoteca
