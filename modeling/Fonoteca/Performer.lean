import Fonoteca.Text.Like

/-!
# Performers, persons and groups

Every track has a performer, of whom nothing but the name need be known.  A performer can be
classified as a person or as a group; what is known about persons and groups, and who belongs to
which group, is kept apart from the performers and found by name.

* `PerformerKind` is the classification, with its numbers (`code`, `codes`, `ofCode`) and its names
  (`name`, `ofName?`).
* `Performer`, `Person` and `Group` are the records.
-/

set_option autoImplicit false

namespace Fonoteca

/-- What a performer is. -/
inductive PerformerKind where
  | person
  | group
  | unknown
  deriving DecidableEq, Repr, Inhabited

namespace PerformerKind

/-- The number of a kind. -/
def code : PerformerKind → Int
  | .person => 0
  | .group => 1
  | .unknown => 2

/-- The kind of a number.  A number that is none counts as unknown. -/
def ofCode (n : Int) : PerformerKind :=
  if n = 0 then .person else if n = 1 then .group else .unknown

@[simp] theorem ofCode_code (k : PerformerKind) : ofCode k.code = k := by
  cases k <;> rfl

/-- The numbers of the kinds. -/
def codes : List Int :=
  [person, group, unknown].map code

theorem code_mem_codes (k : PerformerKind) : k.code ∈ codes := by
  cases k <;> decide

/-- Each number of a kind is that of its kind, and no other is. -/
theorem code_ofCode_iff {n : Int} : (ofCode n).code = n ↔ n ∈ codes := by
  constructor
  · intro h
    exact h ▸ code_mem_codes _
  · intro h
    have hcode : ∀ n ∈ codes, (ofCode n).code = n := by decide
    exact hcode n h

/-- The name of a kind. -/
def name : PerformerKind → String
  | .person => "Person"
  | .group => "Group"
  | .unknown => "Unknown"

/-- A text that names no kind, in small letters. -/
structure NameError where
  lowered : String
  deriving DecidableEq, Repr

/-- What is wrong with the text. -/
def NameError.message (e : NameError) : String :=
  s!"unknown performer type: {e.lowered}"

/-- The kind of a name, whatever the case of its ASCII letters. -/
def ofName? (s : String) : Except NameError PerformerKind :=
  let lowered := Text.asciiLower s
  if lowered = "person" then .ok .person
  else if lowered = "group" then .ok .group
  else if lowered = "unknown" then .ok .unknown
  else .error ⟨lowered⟩

end PerformerKind

/-- A performer, as the library keeps it. -/
structure Performer where
  id : Int
  kind : PerformerKind
  name : String
  deriving DecidableEq, Repr, Inhabited

/-- What is known about a person. -/
structure Person where
  id : Int := 0
  stageName : String
  realName : String := ""
  birthDate : String := ""
  deathDate : String := ""
  deriving DecidableEq, Repr, Inhabited

/-- What is known about a group. -/
structure Group where
  id : Int := 0
  name : String
  startDate : String := ""
  endDate : String := ""
  deriving DecidableEq, Repr, Inhabited

end Fonoteca
