import Fonoteca.Proofs.Store.Reachable
import Mathlib.Data.List.Nodup

/-!
# What holds of the tables at all times

* `Ascending` numbers are positive, and each is above those before it.
* `Tables.Sound` tables have rows with ascending numbers, no name, path or membership twice, and
  nothing that refers to a row that is not there.
* **`Tables.Sound.step`** : no step breaks this, so all tables of a store are sound
  (**`Store.Reachable.sound`**).
-/

set_option autoImplicit false

namespace Fonoteca

/-! ## Numbers of rows -/

/-- Numbers as the rows of a table have them. -/
structure Ascending (ids : List Int) : Prop where
  positive : ∀ i ∈ ids, 0 < i
  sorted : ids.Pairwise (· < ·)

namespace Ascending

theorem nil : Ascending [] :=
  ⟨by simp, .nil⟩

/-- A row with the next number is put at the end. -/
theorem append_nextId {ids : List Int} (h : Ascending ids) : Ascending (ids ++ [nextId ids]) where
  positive i hi := by
    rcases List.mem_append.1 hi with hi | hi
    · exact h.positive i hi
    · rw [List.mem_singleton.1 hi]
      exact nextId_pos ids
  sorted := by
    refine List.pairwise_append.2 ⟨h.sorted, List.pairwise_singleton _ _, fun i hi j hj => ?_⟩
    rw [List.mem_singleton.1 hj]
    exact lt_nextId hi

theorem nodup {ids : List Int} (h : Ascending ids) : ids.Nodup :=
  h.sorted.imp fun h => Int.ne_of_lt h

end Ascending

/-- A row with a value that no row has yet can be put at the end. -/
theorem nodup_concat {α β : Type} {f : α → β} {rows : List α} {row : α}
    (h : (rows.map f).Nodup) (hnew : ∀ r ∈ rows, f r ≠ f row) :
    ((rows ++ [row]).map f).Nodup := by
  rw [List.map_append, List.nodup_append]
  refine ⟨h, List.nodup_singleton _, fun a ha b hb => ?_⟩
  obtain ⟨r, hr, rfl⟩ := List.mem_map.1 ha
  rw [List.mem_singleton.1 hb]
  exact hnew r hr

/-- Rewriting rows keeps what the rewriting does not touch. -/
theorem map_map_eq {α β : Type} {f : α → β} {g : α → α} (h : ∀ a, f (g a) = f a)
    (rows : List α) : (rows.map g).map f = rows.map f := by
  rw [List.map_map]
  exact List.map_congr_left fun a _ => h a

namespace Tables

/-- The numbers of the rows of each table, in the order of the table. -/
def performerIds (t : Tables) : List Int := t.performers.map (·.id)

@[inherit_doc performerIds]
def albumIds (t : Tables) : List Int := t.albums.map (·.id)

@[inherit_doc performerIds]
def trackIds (t : Tables) : List Int := t.tracks.map (·.id)

@[inherit_doc performerIds]
def personIds (t : Tables) : List Int := t.persons.map (·.id)

@[inherit_doc performerIds]
def groupIds (t : Tables) : List Int := t.groups.map (·.id)

/-- What holds of the tables of a store. -/
structure Sound (t : Tables) : Prop where
  performerIds : Ascending t.performerIds
  albumIds : Ascending t.albumIds
  trackIds : Ascending t.trackIds
  personIds : Ascending t.personIds
  groupIds : Ascending t.groupIds
  /-- No two performers have the same name. -/
  performerNames : (t.performers.map (·.name)).Nodup
  /-- No two albums have the same folder and name. -/
  albumNames : (t.albums.map fun a => (a.directory, a.name)).Nodup
  /-- No two tracks have the same path. -/
  paths : (t.tracks.map (·.path)).Nodup
  memberships : t.memberships.Nodup
  performerThere : ∀ r ∈ t.tracks, r.performer ∈ t.performerIds
  albumThere : ∀ r ∈ t.tracks, r.album ∈ t.albumIds
  membersThere : ∀ m ∈ t.memberships, m.person ∈ t.personIds ∧ m.group ∈ t.groupIds

/-! ## Looking up -/

theorem isSome_performer?_iff {t : Tables} {id : Int} :
    (t.performer? id).isSome ↔ id ∈ t.performerIds := by
  simp [performer?, performerIds]

theorem isSome_album?_iff {t : Tables} {id : Int} : (t.album? id).isSome ↔ id ∈ t.albumIds := by
  simp [album?, albumIds]

theorem isSome_person?_iff {t : Tables} {id : Int} :
    (t.person? id).isSome ↔ id ∈ t.personIds := by
  simp [person?, personIds]

theorem isSome_group?_iff {t : Tables} {id : Int} : (t.group? id).isSome ↔ id ∈ t.groupIds := by
  simp [group?, groupIds]

theorem performerNamed?_eq_none_iff {t : Tables} {name : String} :
    t.performerNamed? name = none ↔ ∀ p ∈ t.performers, p.name ≠ name := by
  simp [performerNamed?]

theorem albumNamed?_eq_none_iff {t : Tables} {directory name : String} :
    t.albumNamed? directory name = none ↔
      ∀ a ∈ t.albums, (a.directory, a.name) ≠ (directory, name) := by
  simp [albumNamed?]

/-! ## Rows that are written anew -/

theorem personIds_updatePerson (t : Tables) (p : Person) :
    (t.updatePerson p).personIds = t.personIds :=
  map_map_eq (by intro q; split <;> simp_all) _

theorem groupIds_updateGroup (t : Tables) (g : Group) :
    (t.updateGroup g).groupIds = t.groupIds :=
  map_map_eq (by intro q; split <;> simp_all) _

/-! ## Steps keep tables sound -/

namespace Sound

theorem empty : Sound {} where
  performerIds := .nil
  albumIds := .nil
  trackIds := .nil
  personIds := .nil
  groupIds := .nil
  performerNames := .nil
  albumNames := .nil
  paths := .nil
  memberships := .nil
  performerThere := by simp
  albumThere := by simp
  membersThere := by simp

variable {t : Tables}

theorem pushPerformer (h : Sound t) {kind : PerformerKind} {name : String}
    (hname : t.performerNamed? name = none) : Sound (t.pushPerformer kind name).2 :=
  have hids : (t.pushPerformer kind name).2.performerIds = t.performerIds ++ [t.nextPerformer] :=
    List.map_append
  { h with
    performerIds := hids ▸ h.performerIds.append_nextId
    performerNames := nodup_concat h.performerNames (performerNamed?_eq_none_iff.1 hname)
    performerThere := fun r hr => hids ▸ List.mem_append_left _ (h.performerThere r hr) }

theorem pushAlbum (h : Sound t) {directory name : String} {year : Int}
    (hname : t.albumNamed? directory name = none) : Sound (t.pushAlbum directory name year).2 :=
  have hids : (t.pushAlbum directory name year).2.albumIds = t.albumIds ++ [t.nextAlbum] :=
    List.map_append
  { h with
    albumIds := hids ▸ h.albumIds.append_nextId
    albumNames := nodup_concat h.albumNames (albumNamed?_eq_none_iff.1 hname)
    albumThere := fun r hr => hids ▸ List.mem_append_left _ (h.albumThere r hr) }

theorem pushTrack (h : Sound t) {r : TrackRow} (hpath : ∀ q ∈ t.tracks, q.path ≠ r.path)
    (hperformer : (t.performer? r.performer).isSome) (halbum : (t.album? r.album).isSome) :
    Sound (t.pushTrack r).2 :=
  have hids : (t.pushTrack r).2.trackIds = t.trackIds ++ [t.nextTrack] := List.map_append
  { h with
    trackIds := hids ▸ h.trackIds.append_nextId
    paths := nodup_concat h.paths hpath
    performerThere := fun q hq => by
      rcases List.mem_append.1 hq with hq | hq
      · exact h.performerThere q hq
      · rw [List.mem_singleton.1 hq]
        exact isSome_performer?_iff.1 hperformer
    albumThere := fun q hq => by
      rcases List.mem_append.1 hq with hq | hq
      · exact h.albumThere q hq
      · rw [List.mem_singleton.1 hq]
        exact isSome_album?_iff.1 halbum }

theorem replaceTrack (h : Sound t) {track : Track} {performer album : Int}
    (hperformer : (t.performer? performer).isSome) (halbum : (t.album? album).isSome) :
    Sound (t.replaceTrack track performer album) where
  __ := h
  trackIds := by
    rw [show (t.replaceTrack track performer album).trackIds = t.trackIds from
      map_map_eq (by intro r; split <;> rfl) _]
    exact h.trackIds
  paths := by
    rw [show (t.replaceTrack track performer album).tracks.map (·.path) = t.tracks.map (·.path) from
      map_map_eq (by intro r; split <;> rfl) _]
    exact h.paths
  performerThere r hr := by
    obtain ⟨q, hq, rfl⟩ := List.mem_map.1 hr
    split
    · exact isSome_performer?_iff.1 hperformer
    · exact h.performerThere q hq
  albumThere r hr := by
    obtain ⟨q, hq, rfl⟩ := List.mem_map.1 hr
    split
    · exact isSome_album?_iff.1 halbum
    · exact h.albumThere q hq

theorem setKind (h : Sound t) (id : Int) (kind : PerformerKind) : Sound (t.setKind id kind) :=
  have hids : (t.setKind id kind).performerIds = t.performerIds :=
    map_map_eq (by intro p; split <;> rfl) _
  { h with
    performerIds := hids ▸ h.performerIds
    performerNames := by
      rw [show (t.setKind id kind).performers.map (·.name) = t.performers.map (·.name) from
        map_map_eq (by intro p; split <;> rfl) _]
      exact h.performerNames
    performerThere := fun r hr => hids ▸ h.performerThere r hr }

theorem addPerson (h : Sound t) (p : Person) : Sound (t.addPerson p).2 :=
  have hids : (t.addPerson p).2.personIds = t.personIds ++ [t.nextPerson] := List.map_append
  { h with
    personIds := hids ▸ h.personIds.append_nextId
    membersThere := fun m hm =>
      ⟨hids ▸ List.mem_append_left _ (h.membersThere m hm).1, (h.membersThere m hm).2⟩ }

theorem updatePerson (h : Sound t) (p : Person) : Sound (t.updatePerson p) :=
  have hids := personIds_updatePerson t p
  { h with
    personIds := hids ▸ h.personIds
    membersThere := fun m hm => ⟨hids ▸ (h.membersThere m hm).1, (h.membersThere m hm).2⟩ }

theorem addGroup (h : Sound t) (g : Group) : Sound (t.addGroup g).2 :=
  have hids : (t.addGroup g).2.groupIds = t.groupIds ++ [t.nextGroup] := List.map_append
  { h with
    groupIds := hids ▸ h.groupIds.append_nextId
    membersThere := fun m hm =>
      ⟨(h.membersThere m hm).1, hids ▸ List.mem_append_left _ (h.membersThere m hm).2⟩ }

theorem updateGroup (h : Sound t) (g : Group) : Sound (t.updateGroup g) :=
  have hids := groupIds_updateGroup t g
  { h with
    groupIds := hids ▸ h.groupIds
    membersThere := fun m hm => ⟨(h.membersThere m hm).1, hids ▸ (h.membersThere m hm).2⟩ }

theorem addMembership (h : Sound t) {m : Membership} (hnew : m ∉ t.memberships)
    (hperson : (t.person? m.person).isSome) (hgroup : (t.group? m.group).isSome) :
    Sound { t with memberships := t.memberships ++ [m] } where
  __ := h
  memberships := List.nodup_append.2 ⟨h.memberships, List.nodup_singleton _, fun a ha b hb => by
    rw [List.mem_singleton.1 hb]
    exact fun heq => hnew (heq ▸ ha)⟩
  membersThere a ha := by
    rcases List.mem_append.1 ha with ha | ha
    · exact h.membersThere a ha
    · rw [List.mem_singleton.1 ha]
      exact ⟨isSome_person?_iff.1 hperson, isSome_group?_iff.1 hgroup⟩

/-- **No step breaks sound tables.** -/
theorem step {t u : Tables} (hstep : Step t u) (h : Sound t) : Sound u := by
  cases hstep with
  | performer kind name hname => exact h.pushPerformer hname
  | album directory name year hname => exact h.pushAlbum hname
  | track r hpath hperformer halbum => exact h.pushTrack hpath hperformer halbum
  | rewrite track performer album hperformer halbum => exact h.replaceTrack hperformer halbum
  | kind id kind => exact h.setKind id kind
  | person p => exact h.addPerson p
  | rewritePerson p => exact h.updatePerson p
  | group g => exact h.addGroup g
  | rewriteGroup g => exact h.updateGroup g
  | membership person group hnew hperson hgroup => exact h.addMembership hnew hperson hgroup

theorem steps {t u : Tables} (hsteps : Steps t u) (h : Sound t) : Sound u :=
  hsteps.induct (fun _ _ => step) h

theorem additions {t u : Tables} (hadditions : Additions t u) (h : Sound t) : Sound u :=
  steps (Additions.steps hadditions) h

end Sound
end Tables

/-- **The tables of a store are sound**, whatever it has been asked. -/
theorem Store.Reachable.sound {s : Store} (h : s.Reachable) : s.tables.Sound :=
  .steps h.steps .empty

end Fonoteca
