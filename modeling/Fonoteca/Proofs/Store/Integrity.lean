import Fonoteca.Proofs.Store.SearchBar

/-!
# The integrity of a library

The joined rows are made by looking up the performer and the album of each track.  What they stand
for are all the ways to put a track together with a performer and an album that it refers to.

* `Tables.pairings` are all these ways, and `Tables.Sound.joined_eq_pairings` says that they are the
  joined rows.
* `Store.addPerformerRow_eq_ok` : a performer's row has one of the numbers of the kinds.
* **`Store.Reachable.integrity`** : whatever a store has been asked, names, paths and memberships
  are unique, what is referred to is there, and each track is found exactly once.
-/

set_option autoImplicit false

namespace Fonoteca

/-- Where no two rows have the same number, at most one is left of those of a number. -/
theorem filter_id_eq_toList {α : Type} (id : α → Int) {rows : List α}
    (h : (rows.map id).Nodup) (i : Int) :
    (rows.filter fun r => id r = i) = (rows.find? fun r => id r = i).toList := by
  induction rows with
  | nil => rfl
  | cons r rows ih =>
    obtain ⟨hr, hrows⟩ := List.nodup_cons.1 h
    by_cases hid : id r = i
    · have hnone : (rows.filter fun q => id q = i) = [] := by
        refine List.filter_eq_nil_iff.2 fun q hq hqid => hr ?_
        rw [hid, ← of_decide_eq_true hqid]
        exact List.mem_map_of_mem hq
      simp [hid, hnone]
    · simp [hid, ih hrows]

namespace Tables

/-- All ways to put a track together with a performer and an album of the numbers that it refers
to. -/
def pairings (t : Tables) : List JoinedRow :=
  t.tracks.flatMap fun r =>
    (t.performers.filter fun p => p.id = r.performer).flatMap fun p =>
      (t.albums.filter fun a => a.id = r.album).map fun a =>
        ⟨r.id, p.name, r.title, a.name, r.number, r.year, r.genre, r.path⟩

namespace Sound

variable {t : Tables}

/-- **Joining loses no way to put rows together, and makes up none.** -/
theorem joined_eq_pairings (h : Sound t) : t.joined = t.pairings := by
  rw [h.joined_eq, pairings, List.filterMap_eq_flatMap_toList]
  refine List.flatMap_congr fun r _ => ?_
  rw [filter_id_eq_toList Performer.id h.performerIds.nodup,
    filter_id_eq_toList AlbumRow.id h.albumIds.nodup, join?, performer?, album?]
  cases t.performers.find? _ <;> cases t.albums.find? _ <;> rfl

end Sound
end Tables

/-- A performer's row is admitted with the number of a kind and with no other, and then has it. -/
theorem Store.addPerformerRow_eq_ok {s s' : Store} {kind : Option Int} {name : Option String}
    {id : Int} (h : (Store.addPerformerRow kind name).run s = (.ok id, s')) :
    ∃ p ∈ s'.tables.performers, p.id = id ∧ kind = some p.kind.code ∧ name = some p.name := by
  rw [addPerformerRow] at h
  by_cases hmem : s.inMemory = true
  · rw [run_addRow_inMemory hmem] at h
    cases h
  · rw [run_addRow (by simpa using hmem)] at h
    obtain ⟨-, u, hu, rfl⟩ := write_eq_ok h
    obtain ⟨k, n, hkind, hname, -, hpush⟩ :=
      Tables.addPerformer_eq_ok (classify_eq_ok_iff.1 hu)
    obtain ⟨rfl, rfl⟩ := Prod.mk.inj hpush
    exact ⟨⟨_, k, n⟩, List.mem_append_right _ (.head _), rfl, hkind, hname⟩

/-- **The integrity of a library**: no name, folder and name, path or membership is there twice,
what a row refers to is there, and the numbers of the rows of each table are positive and distinct;
the fixed numbers of the kinds are distinct and begin at 0, and a row with any other number for a
kind is not admitted.  Therefore each track goes together with one performer and one album, and
looking for the empty text finds it exactly once. -/
theorem Store.Reachable.integrity {s : Store} (hs : s.Reachable) :
    (s.tables.performers.map (·.name)).Nodup ∧
    (s.tables.albums.map fun a => (a.directory, a.name)).Nodup ∧
    (s.tables.tracks.map (·.path)).Nodup ∧
    s.tables.memberships.Nodup ∧
    (∀ r ∈ s.tables.tracks, r.performer ∈ s.tables.performerIds ∧ r.album ∈ s.tables.albumIds) ∧
    (∀ p ∈ s.tables.performers, p.kind.code ∈ PerformerKind.codes) ∧
    (∀ kind name id s', (Store.addPerformerRow kind name).run s = (.ok id, s') →
      ∃ p ∈ s'.tables.performers, p.id = id ∧ kind = some p.kind.code ∧ name = some p.name) ∧
    (∀ m ∈ s.tables.memberships, m.person ∈ s.tables.personIds ∧ m.group ∈ s.tables.groupIds) ∧
    (∀ ids ∈ [s.tables.performerIds, s.tables.albumIds, s.tables.trackIds, s.tables.personIds,
      s.tables.groupIds], (∀ i ∈ ids, 0 < i) ∧ ids.Nodup) ∧
    PerformerKind.codes.Nodup ∧ (∀ i ∈ PerformerKind.codes, 0 ≤ i) ∧
    s.tables.pairings.map (·.id) = s.tables.trackIds ∧
    (s.isOpen = true → (Store.containing "").run s = (.ok s.tables.trackIds, s)) := by
  have h := hs.sound
  refine ⟨h.performerNames, h.albumNames, h.paths, h.memberships,
    fun r hr => ⟨h.performerThere r hr, h.albumThere r hr⟩, fun p _ => p.kind.code_mem_codes,
    fun _ _ _ _ => Store.addPerformerRow_eq_ok, h.membersThere, ?_, by decide, by decide, ?_,
    fun hopen => ?_⟩
  · have hids {ids : List Int} (hids : Ascending ids) : (∀ i ∈ ids, 0 < i) ∧ ids.Nodup :=
      ⟨hids.positive, hids.nodup⟩
    simpa using ⟨hids h.performerIds, hids h.albumIds, hids h.trackIds, hids h.personIds,
      hids h.groupIds⟩
  · rw [← h.joined_eq_pairings, h.joined_ids]
  · rw [Store.containing, Store.run_ask hopen, h.containing_empty]
    rfl

/-- The library of one track is of integrity, and its track is found. -/
theorem Store.integrity_oneTrack :
    Store.oneTrack.Reachable ∧ Store.oneTrack.tables.pairings.map (·.id) = [1] ∧
      (Store.containing "").run Store.oneTrack = (.ok [1], Store.oneTrack) := by
  obtain ⟨-, -, -, -, -, -, -, -, -, -, -, hpairings, hfound⟩ :=
    Store.reachable_oneTrack.integrity
  exact ⟨Store.reachable_oneTrack, hpairings, hfound rfl⟩

/-- **Not every number is positive**: the kind of a person has the number 0, and a performer of this
kind is admitted. -/
theorem Store.integrity_kindOfNumberZero :
    ∃ s : Store, s.Reachable ∧
      (Store.addPerformerRow (some 0) (some "Ann")).run {} = (.ok 1, s) ∧
      ∃ p ∈ s.tables.performers, p.kind.code ∈ PerformerKind.codes ∧ ¬ 0 < p.kind.code :=
  ⟨_, (Store.Reachable.new false false).answered (.addPerformerRow (some 0) (some "Ann")), rfl,
    ⟨1, .person, "Ann"⟩, .head _, by decide, by decide⟩

end Fonoteca
