import Fonoteca.Proofs.Store.Sound

/-!
# Persons and groups by name

Nothing in the tables keeps two persons, or two groups, from having one name.  Whoever looks for a
record by name finds the first one, so the names have to be kept apart by those who write them.

* `Tables.NamesApart` says that no two persons and no two groups have one name.  Then each record is
  the one that is found by its name (`NamesApart.personNamed?`, `NamesApart.groupNamed?`).
* `Tables.nodup_rewrite_iff` : writing a record anew keeps the names apart if and only if no other
  record has its name.
* `Tables.Naming` are the steps before which the names were looked at, and **`Naming.namesApart`**
  says that they keep the names apart.
* `Tables.SamePeople` are the steps that concern neither persons nor groups.
-/

set_option autoImplicit false

namespace Fonoteca
namespace Tables

variable {t u v : Tables}

/-- No two persons have the same stage name, and no two groups have the same name. -/
structure NamesApart (t : Tables) : Prop where
  persons : (t.persons.map (·.stageName)).Nodup
  groups : (t.groups.map (·.name)).Nodup

theorem namesApart_empty : NamesApart {} :=
  ⟨List.nodup_nil, List.nodup_nil⟩

theorem personNamed?_eq_none_iff {stageName : String} :
    t.personNamed? stageName = none ↔ ∀ p ∈ t.persons, p.stageName ≠ stageName := by
  simp [personNamed?]

theorem groupNamed?_eq_none_iff {name : String} :
    t.groupNamed? name = none ↔ ∀ g ∈ t.groups, g.name ≠ name := by
  simp [groupNamed?]

/-- A row is the first one of its name, if no two rows have one name. -/
theorem find?_of_nodup {α : Type} {name : α → String} {rows : List α} {row : α}
    (h : (rows.map name).Nodup) (hrow : row ∈ rows) :
    rows.find? (fun r => name r = name row) = some row := by
  cases hfound : rows.find? fun r => name r = name row with
  | none => exact absurd (List.find?_eq_none.1 hfound row hrow) (by simp)
  | some found =>
    have hname : name found = name row := by simpa using List.find?_some hfound
    rw [List.inj_on_of_nodup_map h (List.mem_of_find?_eq_some hfound) hrow hname]

/-- A person is found by the stage name. -/
theorem NamesApart.personNamed? (h : NamesApart t) {p : Person} (hp : p ∈ t.persons) :
    t.personNamed? p.stageName = some p.id := by
  rw [Tables.personNamed?, find?_of_nodup h.persons hp, Option.map_some]

/-- A group is found by its name. -/
theorem NamesApart.groupNamed? (h : NamesApart t) {g : Group} (hg : g ∈ t.groups) :
    t.groupNamed? g.name = some g.id := by
  rw [Tables.groupNamed?, find?_of_nodup h.groups hg, Option.map_some]

/-! ## Writing a record anew -/

/-- **A record that is written anew** has a name of its own if and only if no other record has that
name. -/
theorem nodup_rewrite_iff {α : Type} {id : α → Int} {name : α → String} {rows : List α} {row : α}
    (hids : (rows.map id).Nodup) (hnames : (rows.map name).Nodup) (hrow : id row ∈ rows.map id) :
    ((rows.map fun r => if id r = id row then row else r).map name).Nodup ↔
      ∀ r ∈ rows, name r = name row → id r = id row := by
  rw [List.map_map, List.nodup_map_iff_inj_on (List.Nodup.of_map id hids)]
  simp only [Function.comp_apply]
  constructor
  · intro hinj r hr hname
    obtain ⟨old, hold, hid⟩ := List.mem_map.1 hrow
    by_contra hother
    have hsame := hinj r hr old hold (by rw [if_neg hother, if_pos hid, hname])
    exact hother (hsame ▸ hid)
  · intro hother r hr q hq hname
    by_cases hrid : id r = id row
    · by_cases hqid : id q = id row
      · exact List.inj_on_of_nodup_map hids hr hq (hrid.trans hqid.symm)
      · rw [if_pos hrid, if_neg hqid] at hname
        exact absurd (hother q hq hname.symm) hqid
    · by_cases hqid : id q = id row
      · rw [if_neg hrid, if_pos hqid] at hname
        exact absurd (hother r hr hname) hrid
      · rw [if_neg hrid, if_neg hqid] at hname
        exact List.inj_on_of_nodup_map hnames hr hq hname

/-- Rows stay as they are if the record that is written anew is not among them. -/
theorem rewrite_of_not_mem {α : Type} {id : α → Int} {rows : List α} {row : α}
    (hrow : id row ∉ rows.map id) :
    (rows.map fun r => if id r = id row then row else r) = rows := by
  refine (List.map_congr_left fun r hr => ?_).trans (List.map_id rows)
  exact if_neg fun hid : id r = id row => hrow (hid ▸ List.mem_map_of_mem hr)

/-- A record of a name that no other record has can be written anew. -/
theorem nodup_rewrite {α : Type} {id : α → Int} {name : α → String} {rows : List α} {row : α}
    (hids : (rows.map id).Nodup) (hnames : (rows.map name).Nodup)
    (hother : ∀ r ∈ rows, name r = name row → id r = id row) :
    ((rows.map fun r => if id r = id row then row else r).map name).Nodup := by
  by_cases hrow : id row ∈ rows.map id
  · exact (nodup_rewrite_iff hids hnames hrow).2 hother
  · rwa [rewrite_of_not_mem hrow]

/-! ## Steps -/

/-- Steps that concern neither persons nor groups. -/
structure SamePeople (t u : Tables) : Prop where
  steps : Steps t u
  persons : u.persons = t.persons
  groups : u.groups = t.groups

/-- Steps before which it was seen to that names stay apart. -/
inductive Naming : Tables → Tables → Prop
  /-- A person is added, whose stage name is new. -/
  | person {t : Tables} (p : Person) (hname : t.personNamed? p.stageName = none) :
      Naming t (t.addPerson p).2
  /-- A person is written anew, whose stage name no other person has. -/
  | rewritePerson {t : Tables} (p : Person)
      (hname : ∀ q ∈ t.persons, q.stageName = p.stageName → q.id = p.id) :
      Naming t (t.updatePerson p)
  /-- A group is added, whose name is new. -/
  | group {t : Tables} (g : Group) (hname : t.groupNamed? g.name = none) :
      Naming t (t.addGroup g).2
  /-- A group is written anew, whose name no other group has. -/
  | rewriteGroup {t : Tables} (g : Group)
      (hname : ∀ q ∈ t.groups, q.name = g.name → q.id = g.id) : Naming t (t.updateGroup g)
  /-- Something is written about neither persons nor groups. -/
  | other {t u : Tables} (h : SamePeople t u) : Naming t u

theorem Naming.steps (h : Naming t u) : Steps t u := by
  cases h with
  | person p hname => exact (Step.person p).steps
  | rewritePerson p hname => exact (Step.rewritePerson p).steps
  | group g hname => exact (Step.group g).steps
  | rewriteGroup g hname => exact (Step.rewriteGroup g).steps
  | other h => exact h.steps

/-- **Such a step keeps the names apart.** -/
theorem Naming.namesApart (h : Naming t u) (ht : Sound t) (hnames : NamesApart t) :
    NamesApart u := by
  cases h with
  | person p hname =>
    have hpersons : ((t.persons ++ [{ p with id := t.nextPerson }]).map Person.stageName).Nodup :=
      nodup_concat hnames.persons (personNamed?_eq_none_iff.1 hname)
    exact ⟨hpersons, hnames.groups⟩
  | rewritePerson p hname =>
    exact ⟨nodup_rewrite ht.personIds.nodup hnames.persons hname, hnames.groups⟩
  | group g hname =>
    have hgroups : ((t.groups ++ [{ g with id := t.nextGroup }]).map Group.name).Nodup :=
      nodup_concat hnames.groups (groupNamed?_eq_none_iff.1 hname)
    exact ⟨hnames.persons, hgroups⟩
  | rewriteGroup g hname =>
    exact ⟨hnames.persons, nodup_rewrite ht.groupIds.nodup hnames.groups hname⟩
  | other h =>
    refine ⟨?_, ?_⟩
    · rw [h.persons]
      exact hnames.persons
    · rw [h.groups]
      exact hnames.groups

/-- So do any number of them, in sound tables. -/
theorem namesApart_of_naming (h : Relation.ReflTransGen Naming t u) (ht : Sound t)
    (hnames : NamesApart t) : Sound u ∧ NamesApart u := by
  induction h with
  | refl => exact ⟨ht, hnames⟩
  | tail _ hlast ih => exact ⟨.steps hlast.steps ih.1, hlast.namesApart ih.1 ih.2⟩

/-! ## What concerns neither persons nor groups -/

theorem samePeople_performerFor (t : Tables) (name : String) :
    SamePeople t (t.performerFor name).2 := by
  refine ⟨Additions.steps (t.additions_performerFor name), ?_, ?_⟩ <;>
    rw [performerFor] <;> split <;> rfl

theorem samePeople_albumFor (t : Tables) (directory name : String) (year : Int32) :
    SamePeople t (t.albumFor directory name year).2 := by
  refine ⟨Additions.steps (t.additions_albumFor directory name year), ?_, ?_⟩ <;>
    rw [albumFor] <;> split <;> rfl

theorem samePeople_insertTrack {track : Track} {performer album : Int} {i : Insertion}
    (h : t.insertTrack track performer album = .ok (i, u)) : SamePeople t u := by
  have hsteps := Additions.steps (additions_of_insertTrack h)
  rw [insertTrack] at h
  split at h
  · cases h
    exact ⟨hsteps, rfl, rfl⟩
  · obtain ⟨⟨id, v⟩, hadd, h⟩ := bind_eq_ok h
    cases h
    obtain ⟨r, -, -, -, -, -, -, -, -, -, -, hpush⟩ := addTrack_eq_ok hadd
    obtain rfl : u = (t.pushTrack r).2 := congrArg Prod.snd hpush
    exact ⟨hsteps, rfl, rfl⟩

theorem samePeople_rewriteTrack {track : Track} {performer album : Int} {written : Bool}
    (h : t.rewriteTrack track performer album = .ok (written, u)) : SamePeople t u := by
  have hsteps := steps_of_rewriteTrack h
  rw [rewriteTrack] at h
  split at h
  · cases h
    exact ⟨hsteps, rfl, rfl⟩
  · obtain ⟨_, -, h⟩ := bind_eq_ok h
    cases h
    exact ⟨hsteps, rfl, rfl⟩

theorem samePeople_setKind (t : Tables) (id : Int) (kind : PerformerKind) :
    SamePeople t (t.setKind id kind) :=
  ⟨(Step.kind id kind).steps, rfl, rfl⟩

theorem samePeople_addMembership {person group : Int} (h : t.addMembership person group = .ok u) :
    SamePeople t u := by
  have hsteps := Additions.steps (additions_of_addMembership h)
  rw [addMembership] at h
  split at h
  · cases h
    exact ⟨hsteps, rfl, rfl⟩
  · obtain ⟨_, -, h⟩ := bind_eq_ok h
    cases h
    exact ⟨hsteps, rfl, rfl⟩

end Tables

/-! ## Requests -/

open Tables (Naming)

theorem naming_resolvePerformer (name : String) :
    Stepwise Naming (Store.resolvePerformer name).run :=
  .resolvePerformer fun t => .single (.other (t.samePeople_performerFor name))

theorem naming_resolveAlbum (directory name : String) (year : Int32) :
    Stepwise Naming (Store.resolveAlbum directory name year).run :=
  .resolveAlbum fun t => .single (.other (t.samePeople_albumFor directory name year))

theorem naming_insertTrack (track : Track) (performer album : Int) :
    Stepwise Naming (Store.insertTrack track performer album).run :=
  .insertTrack fun _ _ _ h => .single (.other (Tables.samePeople_insertTrack h))

theorem naming_scanFiles (reader : TagReader) (patience : Patience) (paths : List Path) :
    Stepwise Naming (scanFiles reader patience paths) := by
  have hingest : ∀ track, Stepwise Naming (ingest track).run := fun track =>
    .ingest (naming_resolvePerformer _) (naming_resolveAlbum _ _ _) (naming_insertTrack track)
  exact composes_stepwise.scanFiles hingest reader patience paths

theorem naming_updateTrack (track : Track) : Stepwise Naming (Store.updateTrack track).run :=
  .updateTrack (naming_resolvePerformer _) (naming_resolveAlbum _ _ _)
    fun _ _ _ _ _ h => .single (.other (Tables.samePeople_rewriteTrack h))

theorem naming_setKind (id : Int) (kind : PerformerKind) :
    Stepwise Naming (Store.setKind id kind).run :=
  stepwise_change_ok fun t => .single (.other (t.samePeople_setKind id kind))

theorem naming_join (person group : Int) : Stepwise Naming (Store.join person group).run :=
  .join fun _ _ h => .single (.other (Tables.samePeople_addMembership h))

end Fonoteca
