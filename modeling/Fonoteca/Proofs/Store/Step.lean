import Fonoteca.Proofs.Store.Resolving
import Fonoteca.Store.People
import Mathlib.Logic.Relation

/-!
# What can happen to the tables

Whatever is asked of the store, the tables change by a few kinds of steps, each of which writes one
row or rewrites rows of one table.

* `Tables.Step` lists the steps with what is checked before each of them, `Tables.Steps` is a
  sequence of them.
* `Tables.Addition` are the steps by which the store itself adds to the library: no name, album or
  track that is there changes by them.
* The lemmas below say so of every function that changes the tables.  An invariant of the tables
  need only be compared with the constructors of `Tables.Step`, or of `Tables.Addition` if it is
  about a library that only grows.
-/

set_option autoImplicit false

namespace Fonoteca

/-- The row of a track by a performer on an album, who are given by number. -/
def Track.tableRow (t : Track) (performer album : Int) : TrackRow where
  performer := performer
  album := album
  path := t.path
  title := t.title
  number := t.number.toNat
  year := t.year.toInt
  genre := t.genre

namespace Tables

/-- One write to the tables. -/
inductive Step : Tables → Tables → Prop
  /-- A performer is added, whose name is new. -/
  | performer {t : Tables} (kind : PerformerKind) (name : String)
      (hname : t.performerNamed? name = none) : Step t (t.pushPerformer kind name).2
  /-- An album is added, whose folder and name are new. -/
  | album {t : Tables} (directory name : String) (year : Int)
      (hname : t.albumNamed? directory name = none) : Step t (t.pushAlbum directory name year).2
  /-- A track is added, whose path is new, for a performer and an album that are there. -/
  | track {t : Tables} (r : TrackRow) (hpath : ∀ q ∈ t.tracks, q.path ≠ r.path)
      (hperformer : (t.performer? r.performer).isSome) (halbum : (t.album? r.album).isSome) :
      Step t (t.pushTrack r).2
  /-- A track is written anew, for a performer and an album that are there. -/
  | rewrite {t : Tables} (track : Track) (performer album : Int)
      (hperformer : (t.performer? performer).isSome) (halbum : (t.album? album).isSome) :
      Step t (t.replaceTrack track performer album)
  /-- A performer gets another kind. -/
  | kind {t : Tables} (id : Int) (kind : PerformerKind) : Step t (t.setKind id kind)
  /-- A person is added. -/
  | person {t : Tables} (p : Person) : Step t (t.addPerson p).2
  /-- A person is written anew. -/
  | rewritePerson {t : Tables} (p : Person) : Step t (t.updatePerson p)
  /-- A group is added. -/
  | group {t : Tables} (g : Group) : Step t (t.addGroup g).2
  /-- A group is written anew. -/
  | rewriteGroup {t : Tables} (g : Group) : Step t (t.updateGroup g)
  /-- A person that is there joins a group that is there, for the first time. -/
  | membership {t : Tables} (person group : Int) (hnew : ⟨person, group⟩ ∉ t.memberships)
      (hperson : (t.person? person).isSome) (hgroup : (t.group? group).isSome) :
      Step t { t with memberships := t.memberships ++ [⟨person, group⟩] }

/-- A sequence of writes to the tables. -/
abbrev Steps : Tables → Tables → Prop :=
  Relation.ReflTransGen Step

theorem Step.steps {t u : Tables} (h : Step t u) : Steps t u :=
  .single h

/-- What no step breaks holds after all of them. -/
theorem Steps.induct {P : Tables → Prop} (hstep : ∀ t u, Step t u → P t → P u) {t u : Tables}
    (h : Steps t u) (ht : P t) : P u := by
  induction h with
  | refl => exact ht
  | tail _ hu ih => exact hstep _ _ hu ih

/-! ## Adding to the library -/

/-- The numbers of the performers with their names. -/
def names (t : Tables) : List (Int × String) :=
  t.performers.map fun p => (p.id, p.name)

/-- One write by which the store adds to the library or which is about kinds, persons and groups. -/
inductive Addition : Tables → Tables → Prop
  /-- A performer of nothing but a trimmed name is added, which is new. -/
  | performer {t : Tables} (name : String) (htrim : Text.trim name = name)
      (hname : t.performerNamed? name = none) : Addition t (t.pushPerformer .unknown name).2
  /-- An album is added, whose folder and name are new. -/
  | album {t : Tables} (directory name : String) (year : Int)
      (hname : t.albumNamed? directory name = none) : Addition t (t.pushAlbum directory name year).2
  /-- A track is added that no row is in the way of. -/
  | track {t : Tables} (track : Track) (performer album : Int)
      (hclear : t.joined.any (t.blocks track performer album) = false)
      (hpath : ∀ q ∈ t.tracks, q.path ≠ track.path)
      (hperformer : (t.performer? performer).isSome) (halbum : (t.album? album).isSome) :
      Addition t (t.pushTrack (track.tableRow performer album)).2
  /-- Something is written that is neither a name nor an album nor a track. -/
  | other {t u : Tables} (hstep : Step t u) (hnames : u.names = t.names)
      (halbums : u.albums = t.albums) (htracks : u.tracks = t.tracks) : Addition t u

/-- A sequence of additions to the library. -/
abbrev Additions : Tables → Tables → Prop :=
  Relation.ReflTransGen Addition

theorem Addition.step {t u : Tables} (h : Addition t u) : Step t u := by
  cases h with
  | performer name htrim hname => exact .performer .unknown name hname
  | album directory name year hname => exact .album directory name year hname
  | track track performer album hclear hpath hperformer halbum =>
    exact .track _ hpath hperformer halbum
  | other hstep hnames halbums htracks => exact hstep

theorem Additions.steps {t u : Tables} (h : Additions t u) : Steps t u :=
  Relation.ReflTransGen.mono (r := Addition) (p := Step) (fun _ _ => Addition.step) t u h

/-! ## Names -/

theorem additions_performerFor (t : Tables) (name : String) :
    Additions t (t.performerFor name).2 := by
  rw [performerFor]
  split
  · exact .refl
  · next h => exact .single (.performer _ (Text.trim_trim name) h)

theorem additions_albumFor (t : Tables) (directory name : String) (year : Int32) :
    Additions t (t.albumFor directory name year).2 := by
  rw [albumFor]
  split
  · exact .refl
  · next h => exact .single (.album directory name _ h)

/-! ## Rows under the constraints -/

/-- What adding a performer has checked, and what it adds. -/
theorem addPerformer_eq_ok {t u : Tables} {kind : Option Int} {name : Option String} {id : Int}
    (h : t.addPerformer kind name = .ok (id, u)) :
    ∃ (k : PerformerKind) (n : String), kind = some k.code ∧ name = some n ∧
      t.performerNamed? n = none ∧ (id, u) = t.pushPerformer k n := by
  obtain ⟨c, hc, h⟩ := bind_eq_ok h
  obtain ⟨n, hn, h⟩ := bind_eq_ok h
  obtain ⟨_, hname, h⟩ := bind_eq_ok h
  obtain ⟨_, hcode, h⟩ := bind_eq_ok h
  refine ⟨.ofCode c, n, ?_, required_eq_ok hn, demand_eq_ok hname, (Except.ok.inj h).symm⟩
  rw [required_eq_ok hc, PerformerKind.code_ofCode_iff.2 (demand_eq_ok hcode)]

theorem step_of_addPerformer {t u : Tables} {kind : Option Int} {name : Option String} {id : Int}
    (h : t.addPerformer kind name = .ok (id, u)) : Step t u := by
  obtain ⟨k, n, -, -, hname, hu⟩ := addPerformer_eq_ok h
  rw [show u = (t.pushPerformer k n).2 from congrArg Prod.snd hu]
  exact .performer k n hname

/-- What adding an album has checked, and what it adds. -/
theorem addAlbum_eq_ok {t u : Tables} {directory name : Option String} {year : Option Int}
    {id : Int} (h : t.addAlbum directory name year = .ok (id, u)) :
    ∃ (d n : String) (y : Int), t.albumNamed? d n = none ∧ (id, u) = t.pushAlbum d n y := by
  obtain ⟨d, -, h⟩ := bind_eq_ok h
  obtain ⟨n, -, h⟩ := bind_eq_ok h
  obtain ⟨y, -, h⟩ := bind_eq_ok h
  obtain ⟨_, hname, h⟩ := bind_eq_ok h
  exact ⟨d, n, y, demand_eq_ok hname, (Except.ok.inj h).symm⟩

theorem step_of_addAlbum {t u : Tables} {directory name : Option String} {year : Option Int}
    {id : Int} (h : t.addAlbum directory name year = .ok (id, u)) : Step t u := by
  obtain ⟨d, n, y, hname, hu⟩ := addAlbum_eq_ok h
  rw [show u = (t.pushAlbum d n y).2 from congrArg Prod.snd hu]
  exact .album d n y hname

/-- What adding a track has checked, and what it adds. -/
theorem addTrack_eq_ok {t u : Tables} {performer album : Option Int} {path title : Option String}
    {number year : Option Int} {genre : Option String} {id : Int}
    (h : t.addTrack performer album path title number year genre = .ok (id, u)) :
    ∃ r : TrackRow, performer = some r.performer ∧ album = some r.album ∧ path = some r.path ∧
      title = some r.title ∧ number = some r.number ∧ year = some r.year ∧ genre = some r.genre ∧
      (∀ q ∈ t.tracks, q.path ≠ r.path) ∧ (t.performer? r.performer).isSome ∧
      (t.album? r.album).isSome ∧ (id, u) = t.pushTrack r := by
  obtain ⟨p, hp, h⟩ := bind_eq_ok h
  obtain ⟨a, ha, h⟩ := bind_eq_ok h
  obtain ⟨path', hpath, h⟩ := bind_eq_ok h
  obtain ⟨title', htitle, h⟩ := bind_eq_ok h
  obtain ⟨number', hnumber, h⟩ := bind_eq_ok h
  obtain ⟨year', hyear, h⟩ := bind_eq_ok h
  obtain ⟨genre', hgenre, h⟩ := bind_eq_ok h
  obtain ⟨_, hnew, h⟩ := bind_eq_ok h
  obtain ⟨_, hrefs, h⟩ := bind_eq_ok h
  have hrefs := demand_eq_ok hrefs
  exact ⟨_, required_eq_ok hp, required_eq_ok ha, required_eq_ok hpath, required_eq_ok htitle,
    required_eq_ok hnumber, required_eq_ok hyear, required_eq_ok hgenre, demand_eq_ok hnew,
    hrefs.1, hrefs.2, (Except.ok.inj h).symm⟩

theorem step_of_addTrack {t u : Tables} {performer album : Option Int}
    {path title : Option String} {number year : Option Int} {genre : Option String} {id : Int}
    (h : t.addTrack performer album path title number year genre = .ok (id, u)) : Step t u := by
  obtain ⟨r, -, -, -, -, -, -, -, hpath, hperformer, halbum, hu⟩ := addTrack_eq_ok h
  rw [show u = (t.pushTrack r).2 from congrArg Prod.snd hu]
  exact .track r hpath hperformer halbum

/-! ## Kinds, persons and groups -/

theorem names_setKind (t : Tables) (id : Int) (kind : PerformerKind) :
    (t.setKind id kind).names = t.names := by
  rw [names, names, setKind, List.map_map]
  refine List.map_congr_left fun p _ => ?_
  rw [Function.comp_apply]
  split <;> rfl

theorem addition_setKind (t : Tables) (id : Int) (kind : PerformerKind) :
    Addition t (t.setKind id kind) :=
  .other (.kind id kind) (names_setKind t id kind) rfl rfl

theorem addition_addPerson (t : Tables) (p : Person) : Addition t (t.addPerson p).2 :=
  .other (.person p) rfl rfl rfl

theorem addition_updatePerson (t : Tables) (p : Person) : Addition t (t.updatePerson p) :=
  .other (.rewritePerson p) rfl rfl rfl

theorem addition_addGroup (t : Tables) (g : Group) : Addition t (t.addGroup g).2 :=
  .other (.group g) rfl rfl rfl

theorem addition_updateGroup (t : Tables) (g : Group) : Addition t (t.updateGroup g) :=
  .other (.rewriteGroup g) rfl rfl rfl

theorem additions_of_addMembership {t u : Tables} {person group : Int}
    (h : t.addMembership person group = .ok u) : Additions t u := by
  rw [addMembership] at h
  split at h
  · cases h
    exact .refl
  · next hnew =>
    obtain ⟨_, hrefs, h⟩ := bind_eq_ok h
    have hrefs := demand_eq_ok hrefs
    cases h
    exact .single (.other (.membership person group hnew hrefs.1 hrefs.2) rfl rfl rfl)

/-! ## Tracks -/

theorem additions_of_insertTrack {t u : Tables} {track : Track} {performer album : Int}
    {i : Insertion} (h : t.insertTrack track performer album = .ok (i, u)) : Additions t u := by
  rw [insertTrack] at h
  split at h
  · cases h
    exact .refl
  · next hclear =>
    obtain ⟨⟨id, v⟩, hadd, h⟩ := bind_eq_ok h
    cases h
    obtain ⟨⟨_, p, a, path, title, number, year, genre⟩, hp, ha, hpath, htitle, hnumber, hyear,
      hgenre, hnew, hperformer, halbum, hpush⟩ := addTrack_eq_ok hadd
    -- the number of the row does not matter, as the row gets the next one
    simp only [Option.some.injEq] at hp ha hpath htitle hnumber hyear hgenre
    subst hp ha hpath htitle hnumber hyear hgenre
    obtain rfl : u = (t.pushTrack (track.tableRow performer album)).2 := congrArg Prod.snd hpush
    exact .single (.track track performer album (by simpa using hclear) hnew hperformer halbum)

theorem steps_of_rewriteTrack {t u : Tables} {track : Track} {performer album : Int}
    {written : Bool} (h : t.rewriteTrack track performer album = .ok (written, u)) :
    Steps t u := by
  rw [rewriteTrack] at h
  split at h
  · cases h
    exact .refl
  · obtain ⟨_, hrefs, h⟩ := bind_eq_ok h
    have hrefs := demand_eq_ok hrefs
    cases h
    exact (Step.rewrite track performer album hrefs.1 hrefs.2).steps

end Tables
end Fonoteca
