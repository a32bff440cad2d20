import Fonoteca.Proofs.CommandLine.Libraries
import Fonoteca.Proofs.CommandLine.Steps
import Fonoteca.Proofs.Store.People

/-!
# Names of persons and groups under commands

A person or a group is added by a command only if there is none of its name, whether it is asked for
or comes with a performer who is classified.  Giving a record another name looks at no other record,
and that is the only way to two records of one name.

* `LibraryCommand.RenamesApart` says of a command that it gives no record the name of another one.
* `naming_action` : such a command takes the tables through steps that keep the names apart.
* **`Disk.Commanded.names_apart`** : so in all libraries that commands of this kind have made each
  person and each group is the one that is found by its name.
* `Disk.names_clash` : one renaming of another kind makes two persons of one name.
-/

set_option autoImplicit false

namespace Fonoteca

open ActionM
open Tables (Naming NamesApart Sound)

/-- A command does not give a person or a group the name that another one has. -/
def LibraryCommand.RenamesApart (t : Tables) : LibraryCommand → Prop
  | .updatePerson id changes => (t.person? id).isSome → ∀ name, changes.stageName = some name →
      ∀ p ∈ t.persons, p.stageName = Text.trim name → p.id = id
  | .updateGroup id changes => (t.group? id).isSome → ∀ name, changes.name = some name →
      ∀ g ∈ t.groups, g.name = Text.trim name → g.id = id
  | _ => True

/-! ## The commands that write names -/

namespace Action

variable {s : Stage}

theorem naming_newPerson {p : Person} (hname : s.store.tables.personNamed? p.stageName = none) :
    Leads Naming (newPerson p) s := by
  refine (leads_change fun id u hu => ?_).bind fun _ _ => leads_print _
  cases hu
  exact .person p hname

theorem naming_newGroup {g : Group} (hname : s.store.tables.groupNamed? g.name = none) :
    Leads Naming (newGroup g) s := by
  refine (leads_change fun id u hu => ?_).bind fun _ _ => leads_print _
  cases hu
  exact .group g hname

theorem naming_addPerson (p : Person) : Leads Naming (addPerson p) s := by
  refine .bindAsk fun found hfound => ?_
  cases found with
  | some id => exact leads_throw _
  | none => exact naming_newPerson (Except.ok.inj hfound)

theorem naming_addGroup (g : Group) : Leads Naming (addGroup g) s := by
  refine .bindAsk fun found hfound => ?_
  cases found with
  | some id => exact leads_throw _
  | none => exact naming_newGroup (Except.ok.inj hfound)

theorem naming_ensureRecord (name : String) (kind : PerformerKind) :
    Leads Naming (ensureRecord name kind) s := by
  cases kind with
  | person =>
    refine .bindAsk fun found hfound => ?_
    cases found with
    | some id => exact leads_pure ()
    | none => exact naming_newPerson (Except.ok.inj hfound)
  | group =>
    refine .bindAsk fun found hfound => ?_
    cases found with
    | some id => exact leads_pure ()
    | none => exact naming_newGroup (Except.ok.inj hfound)
  | unknown => exact leads_pure ()

theorem naming_classify (name : String) (kind : PerformerKind) :
    Leads Naming (classify name kind) s := by
  refine (leads_require (stepwise_ask _)).bind fun id _ => ?_
  refine (leads_request (naming_setKind id kind)).bind fun _ _ => ?_
  exact (naming_ensureRecord name kind).bind fun _ _ => leads_print _

theorem naming_updatePerson {id : Int} {changes : PersonChanges}
    (hapart : NamesApart s.store.tables)
    (hrename : (LibraryCommand.updatePerson id changes).RenamesApart s.store.tables) :
    Leads Naming (updatePerson id changes) s := by
  refine .bindRequire fun person hperson => ?_
  have hfound : s.store.tables.person? id = some person := Except.ok.inj hperson
  have hmem := List.mem_of_find?_eq_some hfound
  have hid : person.id = id := by simpa using List.find?_some hfound
  refine (leads_change fun _ u hu => ?_).bind fun _ _ => leads_print _
  cases hu
  refine .rewritePerson (changes.apply person) fun p hp hname => ?_
  cases hchange : changes.stageName with
  | none =>
    have hold : p.stageName = person.stageName := by
      rw [hname, PersonChanges.apply, hchange]
      rfl
    rw [List.inj_on_of_nodup_map hapart.persons hp hmem hold]
    rfl
  | some name =>
    have hnew : p.stageName = Text.trim name := by
      rw [hname, PersonChanges.apply, hchange]
      rfl
    exact (hrename (by rw [hfound]; rfl) name hchange p hp hnew).trans hid.symm

theorem naming_updateGroup {id : Int} {changes : GroupChanges}
    (hapart : NamesApart s.store.tables)
    (hrename : (LibraryCommand.updateGroup id changes).RenamesApart s.store.tables) :
    Leads Naming (updateGroup id changes) s := by
  refine .bindRequire fun group hgroup => ?_
  have hfound : s.store.tables.group? id = some group := Except.ok.inj hgroup
  have hmem := List.mem_of_find?_eq_some hfound
  have hid : group.id = id := by simpa using List.find?_some hfound
  refine (leads_change fun _ u hu => ?_).bind fun _ _ => leads_print _
  cases hu
  refine .rewriteGroup (changes.apply group) fun g hg hname => ?_
  cases hchange : changes.name with
  | none =>
    have hold : g.name = group.name := by
      rw [hname, GroupChanges.apply, hchange]
      rfl
    rw [List.inj_on_of_nodup_map hapart.groups hg hmem hold]
    rfl
  | some name =>
    have hnew : g.name = Text.trim name := by
      rw [hname, GroupChanges.apply, hchange]
      rfl
    exact (hrename (by rw [hfound]; rfl) name hchange g hg hnew).trans hid.symm

theorem naming_scanFolder (disk : Disk Content) (root : Path) (extension : String) :
    Leads Naming (scanFolder disk root extension) s := by
  refine (leads_print _).bind fun _ _ => (leads_inStore (naming_scanFiles _ _ _)).bind fun _ _ => ?_
  refine (leads_printAll _).bind fun _ _ => ?_
  split
  · exact leads_print _
  · exact leads_throw _

theorem naming_editTrack (id : Int) (changes : TrackChanges) :
    Leads Naming (editTrack id changes) s := by
  refine (leads_require (stepwise_ask _)).bind fun track _ => ?_
  split
  · exact leads_print _
  · exact (leads_request (naming_updateTrack _)).bind fun _ _ => leads_print _

theorem naming_joinGroup (person group : String) : Leads Naming (joinGroup person group) s := by
  refine (leads_require (stepwise_ask _)).bind fun personId _ => ?_
  refine (leads_require (stepwise_ask _)).bind fun groupId _ => ?_
  exact (leads_request (naming_join _ _)).bind fun _ _ => leads_print _

end Action

/-- **A command that gives no record the name of another one** takes the tables through steps that
keep the names apart. -/
theorem naming_action {c : LibraryCommand} {s : Stage} (hapart : NamesApart s.store.tables)
    (hrename : c.RenamesApart s.store.tables) (disk : Disk Content) (plan : Plan)
    (folder : Path) (ending : String) : Leads Naming (c.action disk plan folder ending) s := by
  by_cases hquery : c.isQuery = true
  · exact leads_of_isQuery hquery
  cases c with
  | scan root extension => exact Action.naming_scanFolder _ _ _
  | edit id changes => exact Action.naming_editTrack id changes
  | classify name kind => exact Action.naming_classify name kind
  | addPerson person => exact Action.naming_addPerson person
  | updatePerson id changes => exact Action.naming_updatePerson hapart hrename
  | addGroup group => exact Action.naming_addGroup group
  | updateGroup id changes => exact Action.naming_updateGroup hapart hrename
  | join person group => exact Action.naming_joinGroup person group
  | _ => exact absurd rfl hquery

/-! ## All libraries -/

namespace Disk

variable {d : Disk Content}

/-- Sound tables with names apart are kept so by a command that gives no record the name of another
one. -/
theorem maintains_namesApart {c : LibraryCommand} {t : Tables} (hrename : c.RenamesApart t)
    (h : Sound t ∧ NamesApart t) : c.Maintains (fun t => Sound t ∧ NamesApart t) t := by
  rintro disk plan folder ending store rfl
  obtain ⟨u, hu, hs⟩ := naming_action (s := { store }) h.2 hrename disk plan folder ending
  rw [show ((c.action disk plan folder ending).run { store }).2.store = { store with tables := u }
    from hs]
  exact Tables.namesApart_of_naming hu h.1 h.2

/-- **Names are unambiguous** in all libraries that commands have made, whatever the commands were
and whether they failed, if none of them gave a person or a group the name of another one: no two
persons and no two groups have one name, and each of them is the one that is found by it. -/
theorem Commanded.names_apart (h : d.Commanded fun c t => c.RenamesApart t)
    {place : List Bytes} {tables : Tables} {logged : Bool}
    (hfile : d.root.lookup place = some (.file (.database tables logged))) :
    (tables.persons.map (·.stageName)).Nodup ∧ (tables.groups.map (·.name)).Nodup ∧
    (∀ p ∈ tables.persons, tables.personNamed? p.stageName = some p.id) ∧
    ∀ g ∈ tables.groups, tables.groupNamed? g.name = some g.id := by
  have hlibraries : d.Libraries fun t => Sound t ∧ NamesApart t :=
    h.libraries ⟨Sound.empty, Tables.namesApart_empty⟩ fun c t => maintains_namesApart
  have hapart := (hlibraries.of_lookup hfile).2
  exact ⟨hapart.persons, hapart.groups, fun _ => hapart.personNamed?, fun _ => hapart.groupNamed?⟩

/-- A person who was given another name leaves the old one to somebody else. -/
theorem names_apart_oneFile :
    ∃ d : Disk Content, (d.Commanded fun c t => c.RenamesApart t) ∧
      ∃ tables, d.root.lookup onePlace = some (.file (.database tables false)) ∧
        tables.persons = [{ id := 1, stageName := "B" }, { id := 2, stageName := "A" }] ∧
        tables.personNamed? "B" = some 1 ∧ tables.personNamed? "A" = some 2 := by
  have hblank : (oneFile (.bytes [])).Commanded fun c t => c.RenamesApart t := .blankFile
  have hadded := hblank.runOneFile (.inl ⟨rfl, rfl⟩) (c := .addPerson { stageName := "A" })
    (fun _ _ => rfl) trivial (u := { persons := [{ id := 1, stageName := "A" }] })
    fun _ _ _ _ => rfl
  have hrenamed := hadded.runOneFile (.inr rfl) (c := .updatePerson 1 { stageName := some " B " })
    (fun _ _ => rfl) (by intro _ name hname p hp _; rw [List.mem_singleton.1 hp])
    (u := { persons := [{ id := 1, stageName := "B" }] }) fun _ _ _ _ => rfl
  have hagain := hrenamed.runOneFile (.inr rfl) (c := .addPerson { stageName := "A" })
    (fun _ _ => rfl) trivial
    (u := { persons := [{ id := 1, stageName := "B" }, { id := 2, stageName := "A" }] })
    fun _ _ _ _ => rfl
  have hfile : (oneFile (.database { persons :=
      [{ id := 1, stageName := "B" }, { id := 2, stageName := "A" }] } false)).root.lookup
        onePlace = some (.file (.database _ false)) := rfl
  obtain ⟨-, -, hfound, -⟩ := hagain.names_apart hfile
  exact ⟨_, hagain, _, rfl, rfl, hfound { id := 1, stageName := "B" } (by decide),
    hfound { id := 2, stageName := "A" } (by decide)⟩

/-- **Names clash** once a person is given the name of another one: nothing keeps the command from
it, and afterwards one of the two is not found. -/
theorem names_clash :
    ∃ d : Disk Content, d.Commanded (fun _ _ => True) ∧
      ∃ tables, d.root.lookup onePlace = some (.file (.database tables false)) ∧
        ¬ (tables.persons.map (·.stageName)).Nodup ∧
        ∃ p ∈ tables.persons, tables.personNamed? p.stageName ≠ some p.id := by
  have hblank : (oneFile (.bytes [])).Commanded fun _ _ => True := .blankFile
  have hfirst := hblank.runOneFile (.inl ⟨rfl, rfl⟩) (c := .addPerson { stageName := "A" })
    (fun _ _ => rfl) trivial (u := { persons := [{ id := 1, stageName := "A" }] })
    fun _ _ _ _ => rfl
  have hsecond := hfirst.runOneFile (.inr rfl) (c := .addPerson { stageName := "B" })
    (fun _ _ => rfl) trivial
    (u := { persons := [{ id := 1, stageName := "A" }, { id := 2, stageName := "B" }] })
    fun _ _ _ _ => rfl
  have hrenamed := hsecond.runOneFile (.inr rfl) (c := .updatePerson 2 { stageName := some "A" })
    (fun _ _ => rfl) trivial
    (u := { persons := [{ id := 1, stageName := "A" }, { id := 2, stageName := "A" }] })
    fun _ _ _ _ => rfl
  exact ⟨_, hrenamed, _, rfl, by decide, { id := 2, stageName := "A" }, by decide, by decide⟩

end Disk
end Fonoteca
