import Fonoteca.Store.Tables

/-!
# Performers, persons and groups in the tables

* `Tables.setKind` classifies a performer.
* `Tables.addPerson`, `Tables.addGroup`, `Tables.updatePerson` and `Tables.updateGroup` keep what is
  known about persons and groups.  Their names need not be unique here.
* `Tables.members` and `Tables.groupsOf` read the memberships from either side, as sorted names.
* `Tables.personNames` and `Tables.groupNames` list all of them by name.
-/

set_option autoImplicit false

namespace Fonoteca
namespace Tables

/-! ## Keeping records -/

/-- Gives a performer another kind. -/
def setKind (t : Tables) (id : Int) (kind : PerformerKind) : Tables :=
  { t with performers := t.performers.map fun p => if p.id = id then { p with kind } else p }

/-- Adds a person with the next number in place of the person's own, and gives that number. -/
def addPerson (t : Tables) (p : Person) : Int × Tables :=
  (t.nextPerson, { t with persons := t.persons ++ [{ p with id := t.nextPerson }] })

/-- Puts a person in the place of the one with the same number, if there is one. -/
def updatePerson (t : Tables) (p : Person) : Tables :=
  { t with persons := t.persons.map fun q => if q.id = p.id then p else q }

/-- Adds a group with the next number in place of the group's own, and gives that number. -/
def addGroup (t : Tables) (g : Group) : Int × Tables :=
  (t.nextGroup, { t with groups := t.groups ++ [{ g with id := t.nextGroup }] })

/-- Puts a group in the place of the one with the same number, if there is one. -/
def updateGroup (t : Tables) (g : Group) : Tables :=
  { t with groups := t.groups.map fun q => if q.id = g.id then g else q }

/-! ## Lists of names -/

/-- Names in ascending order. -/
def sortNames (names : List String) : List String :=
  names.mergeSort fun a b => a ≤ b

/-- The stage names of the members of a group. -/
def members (t : Tables) (group : Int) : List String :=
  sortNames ((t.memberships.filter (·.group = group)).filterMap fun m =>
    (t.person? m.person).map (·.stageName))

/-- The names of the groups of a person. -/
def groupsOf (t : Tables) (person : Int) : List String :=
  sortNames ((t.memberships.filter (·.person = person)).filterMap fun m =>
    (t.group? m.group).map (·.name))

/-- Names with numbers, by name, and by number where names are equal. -/
def sortNamed (entries : List (String × Int)) : List (String × Int) :=
  entries.mergeSort fun a b => a.1 < b.1 ∨ (a.1 = b.1 ∧ a.2 ≤ b.2)

/-- The stage names of all persons, with their numbers. -/
def personNames (t : Tables) : List (String × Int) :=
  sortNamed (t.persons.map fun p => (p.stageName, p.id))

/-- The names of all groups, with their numbers. -/
def groupNames (t : Tables) : List (String × Int) :=
  sortNamed (t.groups.map fun g => (g.name, g.id))

end Tables
end Fonoteca
