import Fonoteca.Proofs.Store.Joined

/-!
# What a library never loses

Rows are only ever put behind the others, and what makes out a row is never written anew: the name
of a performer, the folder, the name and the year of an album, the path of a track, and the number
of any row.

* `Tables.KeepsNames` says that the performers' names and the albums stay, and others are put behind
  them.  Who has been found by name or by number is found ever after, and a track shows as it did.
* `Tables.Keeps` says this of whatever makes out a row, in every table.  One step does so
  (**`Tables.Step.keeps`**).
* `Store.Later` says that one store becomes another in the course of time, and
  **`Store.Later.keeps`** is what it keeps.
* **`Store.Reachable.permanent`** : an identity, once given, stays with its row for good.
-/

set_option autoImplicit false

namespace Fonoteca
namespace Tables

/-! ## Looking up in the names -/

theorem performerNamed?_eq_find? (t : Tables) (name : String) :
    t.performerNamed? name = (t.names.find? (·.2 = name)).map (·.1) := by
  rw [names, List.find?_map, Option.map_map]
  rfl

theorem performer?_name_eq_find? (t : Tables) (id : Int) :
    (t.performer? id).map (·.name) = (t.names.find? (·.1 = id)).map (·.2) := by
  rw [names, List.find?_map, Option.map_map]
  rfl

theorem mem_names_iff {t : Tables} {id : Int} {name : String} :
    (id, name) ∈ t.names ↔ ∃ p ∈ t.performers, p.id = id ∧ p.name = name := by
  simp [names]

/-! ## The names that tracks refer to -/

/-- Performers' names and albums stay, and others are put behind them. -/
structure KeepsNames (t u : Tables) : Prop where
  names : t.names <+: u.names
  albums : t.albums <+: u.albums

namespace KeepsNames

variable {t u : Tables}

theorem performerNamed? (h : KeepsNames t u) {name : String} {id : Int}
    (hid : t.performerNamed? name = some id) : u.performerNamed? name = some id := by
  rw [performerNamed?_eq_find?] at hid ⊢
  obtain ⟨entry, hentry, rfl⟩ := Option.map_eq_some_iff.1 hid
  rw [h.names.find?_eq_some hentry, Option.map_some]

theorem performer?_name (h : KeepsNames t u) {id : Int} {name : String}
    (hname : (t.performer? id).map (·.name) = some name) :
    (u.performer? id).map (·.name) = some name := by
  rw [performer?_name_eq_find?] at hname ⊢
  obtain ⟨entry, hentry, rfl⟩ := Option.map_eq_some_iff.1 hname
  rw [h.names.find?_eq_some hentry, Option.map_some]

theorem albumNamed? (h : KeepsNames t u) {directory name : String} {id : Int}
    (hid : t.albumNamed? directory name = some id) : u.albumNamed? directory name = some id := by
  obtain ⟨a, ha, rfl⟩ := Option.map_eq_some_iff.1 hid
  rw [Tables.albumNamed?, h.albums.find?_eq_some ha, Option.map_some]

theorem album? (h : KeepsNames t u) {id : Int} {a : AlbumRow} (ha : t.album? id = some a) :
    u.album? id = some a :=
  h.albums.find?_eq_some ha

theorem album?_name (h : KeepsNames t u) {id : Int} {name : String}
    (hname : (t.album? id).map (·.name) = some name) :
    (u.album? id).map (·.name) = some name := by
  obtain ⟨a, ha, rfl⟩ := Option.map_eq_some_iff.1 hname
  rw [h.album? ha, Option.map_some]

/-- A track shows as it did. -/
theorem shows (h : KeepsNames t u) {r : TrackRow} {row : JoinedRow} (hrow : t.Shows r row) :
    u.Shows r row where
  __ := hrow
  artist := mem_names_iff.1 (h.names.subset (mem_names_iff.2 hrow.artist))
  album := by
    obtain ⟨a, ha, hname⟩ := hrow.album
    exact ⟨a, h.albums.subset ha, hname⟩

/-- A row that is in the way stays in the way. -/
theorem blocks (h : KeepsNames t u) {track : Track} {performer album : Int} {row : JoinedRow}
    (hrow : t.blocks track performer album row = true) :
    u.blocks track performer album row = true := by
  simp only [Tables.blocks, decide_eq_true_eq] at hrow ⊢
  refine hrow.imp id fun hnames => ?_
  exact ⟨h.performer?_name hnames.1, h.album?_name hnames.2.1, hnames.2.2⟩

/-- Where the tracks are the same, they show as the same joined rows. -/
theorem joined_eq (h : KeepsNames t u) (ht : Sound t) (hu : Sound u)
    (htracks : u.tracks = t.tracks) : u.joined = t.joined := by
  rw [ht.joined_eq, hu.joined_eq, htracks]
  refine List.filterMap_congr fun r hr => ?_
  obtain ⟨row, hrow⟩ := ht.exists_shows hr
  rw [ht.join?_eq_some_iff_shows.2 hrow, hu.join?_eq_some_iff_shows.2 (h.shows hrow)]

end KeepsNames

/-! ## What makes out a row -/

/-- The numbers of the tracks with their paths. -/
def places (t : Tables) : List (Int × String) :=
  t.tracks.map fun r => (r.id, r.path)

theorem track?_path_eq_find? (t : Tables) (id : Int) :
    (t.track? id).map (·.path) = (t.places.find? (·.1 = id)).map (·.2) := by
  rw [places, List.find?_map, Option.map_map]
  rfl

/-- Every row stays at its place in its table with what makes it out, and others are put behind. -/
structure Keeps (t u : Tables) : Prop extends KeepsNames t u where
  places : t.places <+: u.places
  persons : t.personIds <+: u.personIds
  groups : t.groupIds <+: u.groupIds
  memberships : t.memberships <+: u.memberships

namespace Keeps

variable {t u v : Tables}

theorem refl (t : Tables) : Keeps t t where
  names := List.prefix_rfl
  albums := List.prefix_rfl
  places := List.prefix_rfl
  persons := List.prefix_rfl
  groups := List.prefix_rfl
  memberships := List.prefix_rfl

theorem trans (h : Keeps t u) (h' : Keeps u v) : Keeps t v where
  names := h.names.trans h'.names
  albums := h.albums.trans h'.albums
  places := h.places.trans h'.places
  persons := h.persons.trans h'.persons
  groups := h.groups.trans h'.groups
  memberships := h.memberships.trans h'.memberships

theorem track?_path (h : Keeps t u) {id : Int} {path : String}
    (hpath : (t.track? id).map (·.path) = some path) :
    (u.track? id).map (·.path) = some path := by
  rw [track?_path_eq_find?] at hpath ⊢
  obtain ⟨entry, hentry, rfl⟩ := Option.map_eq_some_iff.1 hpath
  rw [h.places.find?_eq_some hentry, Option.map_some]

/-- The numbers of the performers stay with their names. -/
theorem performerIds (h : Keeps t u) : t.performerIds <+: u.performerIds := by
  have hnames := h.names.map Prod.fst
  rwa [Tables.names, Tables.names, List.map_map, List.map_map] at hnames

theorem albumIds (h : Keeps t u) : t.albumIds <+: u.albumIds :=
  h.albums.map _

/-- The numbers of the tracks stay with their paths. -/
theorem trackIds (h : Keeps t u) : t.trackIds <+: u.trackIds := by
  have hplaces := h.places.map Prod.fst
  rwa [Tables.places, Tables.places, List.map_map, List.map_map] at hplaces

end Keeps

/-- **No step loses a row**, or gives it another identity. -/
theorem Step.keeps {t u : Tables} (h : Step t u) : Keeps t u := by
  cases h with
  | performer kind name hname =>
    exact { Keeps.refl t with names := (List.prefix_append _ _).map _ }
  | album directory name year hname =>
    exact { Keeps.refl t with albums := List.prefix_append _ _ }
  | track r hpath hperformer halbum =>
    exact { Keeps.refl t with places := (List.prefix_append _ _).map _ }
  | rewrite track performer album hperformer halbum =>
    -- the one step that writes a track anew: everything but its number and its path
    have hplaces : (t.replaceTrack track performer album).places = t.places :=
      map_map_eq (by intro r; split <;> rfl) _
    exact { Keeps.refl t with places := hplaces ▸ List.prefix_rfl }
  | kind id kind =>
    exact { Keeps.refl t with names := names_setKind t id kind ▸ List.prefix_rfl }
  | person p =>
    exact { Keeps.refl t with persons := (List.prefix_append _ _).map _ }
  | rewritePerson p =>
    exact { Keeps.refl t with persons := personIds_updatePerson t p ▸ List.prefix_rfl }
  | group g =>
    exact { Keeps.refl t with groups := (List.prefix_append _ _).map _ }
  | rewriteGroup g =>
    exact { Keeps.refl t with groups := groupIds_updateGroup t g ▸ List.prefix_rfl }
  | membership person group hnew hperson hgroup =>
    exact { Keeps.refl t with memberships := List.prefix_append _ _ }

theorem Steps.keeps {t u : Tables} (h : Steps t u) : Keeps t u := by
  induction h with
  | refl => exact .refl t
  | tail _ hlast ih => exact ih.trans hlast.keeps

end Tables

/-! ## In the course of time -/

namespace Store

/-- What may happen next to a store: it answers a request, or its database is opened again, for
reading only or not.  A library in memory is not opened again, as that makes another one. -/
inductive Turn : Store → Store → Prop
  | answered {s : Store} (request : Request) (hkept : request = .reopen → s.inMemory = false) :
      Turn s (request.run.run s).2
  | opened {s : Store} (readOnly : Bool) (hdisk : s.inMemory = false) :
      Turn s { s with isOpen := true, readOnly }

/-- A store becomes another one in the course of time. -/
abbrev Later (s s' : Store) : Prop :=
  Relation.ReflTransGen Turn s s'

theorem Turn.keeps {s s' : Store} (h : Turn s s') : s.tables.Keeps s'.tables := by
  cases h with
  | answered request hkept => exact Tables.Steps.keeps (tables_run stepwise_run hkept)
  | opened readOnly hdisk => exact .refl s.tables

/-- **A library loses nothing in the course of time.** -/
theorem Later.keeps {s s' : Store} (h : s.Later s') : s.tables.Keeps s'.tables := by
  induction h with
  | refl => exact .refl s.tables
  | tail _ hlast ih => exact ih.trans hlast.keeps

theorem Reachable.later {s s' : Store} (hs : s.Reachable) (h : s.Later s') : s'.Reachable := by
  induction h with
  | refl => exact hs
  | tail _ hlast ih =>
    cases hlast with
    | answered request hkept => exact ih.answered request
    | opened readOnly hdisk => exact ih.opened readOnly hdisk

/-- What a history of requests leads to is later. -/
theorem later_runAll {s : Store} {requests : List Request}
    (hkept : .reopen ∈ requests → s.inMemory = false) :
    s.Later ((Request.runAll requests).run s).2 := by
  induction requests generalizing s with
  | nil => exact .refl
  | cons request requests ih =>
    rw [Request.runAll_cons]
    refine .head (.answered request fun h => hkept (h ▸ .head _)) (ih fun h => ?_)
    rw [inMemory_run]
    exact hkept (.tail _ h)

/-- **Identities are permanent.**  Whatever a store is asked and whether it succeeds or not, the
number of a performer stays with the name, the number of an album with the folder, the name and the
year, and the number of a track with the path.  No row of any table is ever lost: each stays at its
place with its number, and no other row has this number at any time. -/
theorem Reachable.permanent {s s' : Store} (hs : s.Reachable) (hlater : s.Later s') :
    (∀ id name, (s.tables.performer? id).map (·.name) = some name →
      (s'.tables.performer? id).map (·.name) = some name) ∧
    (∀ id album, s.tables.album? id = some album → s'.tables.album? id = some album) ∧
    (∀ id path, (s.tables.track? id).map (·.path) = some path →
      (s'.tables.track? id).map (·.path) = some path) ∧
    s.tables.memberships <+: s'.tables.memberships ∧
    ∀ ids ∈ [Tables.performerIds, Tables.albumIds, Tables.trackIds, Tables.personIds,
      Tables.groupIds], ids s.tables <+: ids s'.tables ∧ (ids s'.tables).Nodup := by
  have hkeeps := hlater.keeps
  have hsound := (hs.later hlater).sound
  refine ⟨fun id name hname => hkeeps.performer?_name hname, fun id album => hkeeps.album?,
    fun id path hpath => hkeeps.track?_path hpath, hkeeps.memberships, ?_⟩
  simpa using ⟨⟨hkeeps.performerIds, hsound.performerIds.nodup⟩,
    ⟨hkeeps.albumIds, hsound.albumIds.nodup⟩, ⟨hkeeps.trackIds, hsound.trackIds.nodup⟩,
    ⟨hkeeps.persons, hsound.personIds.nodup⟩, ⟨hkeeps.groups, hsound.groupIds.nodup⟩⟩

/-- A track that is written back with another path and on an album of another year keeps the path
that it had, and the album its year, after the library was closed and opened again. -/
theorem permanent_oneTrack :
    ∃ s', ((Request.runAll [
        .updateTrack { lostLetter with path := "music/b.mp3", year := 1999, id := 1 },
        .resolvePerformer "Bo", .close, .reopen, .setKind 1 .group]).run oneTrack).2 = s' ∧
      (s'.tables.performer? 1).map (·.name) = some "Iris" ∧
      s'.tables.album? 1 = some ⟨1, "music", unknown, 2018⟩ ∧
      (s'.tables.track? 1).map (·.path) = some "music/a.mp3" := by
  have hlater : oneTrack.Later ((Request.runAll [
      .updateTrack { lostLetter with path := "music/b.mp3", year := 1999, id := 1 },
      .resolvePerformer "Bo", .close, .reopen, .setKind 1 .group]).run oneTrack).2 :=
    later_runAll fun _ => rfl
  obtain ⟨hperformer, halbum, htrack, -⟩ := reachable_oneTrack.permanent hlater
  exact ⟨_, rfl, hperformer 1 _ rfl, halbum 1 _ rfl, htrack 1 _ rfl⟩

/-- **A library in memory is forgotten** when it is opened again: the number of a performer then
belongs to nobody, and the next one gets it. -/
theorem forgotten_inMemory :
    ∃ s s' : Store, s.Reachable ∧ (Request.reopen.run.run s).2 = s' ∧
      (s.tables.performer? 1).map (·.name) = some "Ann" ∧ s'.tables.performer? 1 = none ∧
      ((Request.resolvePerformer "Bo").run.run s').1 = .id 1 := by
  have hs := (Reachable.new false true).answered (.resolvePerformer "Ann")
  exact ⟨_, _, hs, rfl, by decide +kernel, by decide +kernel, by decide +kernel⟩

end Store
end Fonoteca
