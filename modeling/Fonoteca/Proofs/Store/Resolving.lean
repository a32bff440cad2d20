import Fonoteca.Proofs.Lists
import Fonoteca.Proofs.Text.Trimming
import Fonoteca.Store.Resolution

/-!
# Resolving names

A name is resolved by an insertion, which is only tried if there is no row of the name, and by a
look-up.  The constraints of the table ask the same as the look-up before the insertion does, so
that neither of the two can fail.

* `Tables.performerFor` and `Tables.albumFor` give the number and the tables that a name is resolved
  to.
* **`Tables.resolvePerformer_eq`** and **`Tables.resolveAlbum_eq`** : every name is resolved to
  these.
-/

set_option autoImplicit false

namespace Fonoteca
namespace Tables

/-! ## Rows that were added are found -/

theorem performerNamed?_pushPerformer {t : Tables} (kind : PerformerKind) {name : String}
    (h : t.performerNamed? name = none) :
    (t.pushPerformer kind name).2.performerNamed? name = some (t.pushPerformer kind name).1 := by
  rw [performerNamed?, Option.map_eq_none_iff] at h
  simp [performerNamed?, pushPerformer, List.find?_append, h]

theorem albumNamed?_pushAlbum {t : Tables} {directory name : String} (year : Int)
    (h : t.albumNamed? directory name = none) :
    (t.pushAlbum directory name year).2.albumNamed? directory name =
      some (t.pushAlbum directory name year).1 := by
  rw [albumNamed?, Option.map_eq_none_iff] at h
  simp only [albumNamed?, pushAlbum, List.find?_append, h]
  simp

theorem performer?_of_performerNamed? {t : Tables} {name : String} {id : Int}
    (h : t.performerNamed? name = some id) : (t.performer? id).isSome := by
  obtain ⟨p, hp, rfl⟩ := Option.map_eq_some_iff.1 h
  rw [performer?, List.find?_isSome]
  exact ⟨p, List.mem_of_find?_eq_some hp, by simp⟩

theorem album?_of_albumNamed? {t : Tables} {directory name : String} {id : Int}
    (h : t.albumNamed? directory name = some id) : (t.album? id).isSome := by
  obtain ⟨a, ha, rfl⟩ := Option.map_eq_some_iff.1 h
  rw [album?, List.find?_isSome]
  exact ⟨a, List.mem_of_find?_eq_some ha, by simp⟩

/-! ## What names are resolved to -/

/-- The number of the performer of a name, and the tables with the performer. -/
def performerFor (t : Tables) (name : String) : Int × Tables :=
  match t.performerNamed? (Text.trim name) with
  | some id => (id, t)
  | none => t.pushPerformer .unknown (Text.trim name)

/-- The number of the album of a name in a folder, and the tables with the album. -/
def albumFor (t : Tables) (directory name : String) (year : Int32) : Int × Tables :=
  match t.albumNamed? directory name with
  | some id => (id, t)
  | none => t.pushAlbum directory name year.toInt

/-- An album that is there is the one that its name is resolved to in its folder. -/
theorem albumFor_of_named {t : Tables} {directory name : String} {id : Int} (year : Int32)
    (h : t.albumNamed? directory name = some id) :
    t.albumFor directory name year = (id, t) := by
  rw [albumFor, h]

/-- A name that is resolved is found by the number that it is resolved to. -/
theorem performerNamed?_performerFor (t : Tables) (name : String) :
    (t.performerFor name).2.performerNamed? (Text.trim name) = some (t.performerFor name).1 := by
  rw [performerFor]
  split
  · assumption
  · next h => exact performerNamed?_pushPerformer .unknown h

theorem albumNamed?_albumFor (t : Tables) (directory name : String) (year : Int32) :
    (t.albumFor directory name year).2.albumNamed? directory name =
      some (t.albumFor directory name year).1 := by
  rw [albumFor]
  split
  · assumption
  · next h => exact albumNamed?_pushAlbum _ h

/-- The performer of a resolved name is there. -/
theorem performer?_performerFor (t : Tables) (name : String) :
    ((t.performerFor name).2.performer? (t.performerFor name).1).isSome :=
  performer?_of_performerNamed? (performerNamed?_performerFor t name)

/-- The album of a resolved name is there. -/
theorem album?_albumFor (t : Tables) (directory name : String) (year : Int32) :
    ((t.albumFor directory name year).2.album? (t.albumFor directory name year).1).isSome :=
  album?_of_albumNamed? (albumNamed?_albumFor t directory name year)

/-- Resolving an album leaves the performers alone. -/
@[simp] theorem performers_albumFor (t : Tables) (directory name : String) (year : Int32) :
    (t.albumFor directory name year).2.performers = t.performers := by
  rw [albumFor]
  split <;> rfl

/-- Resolving a performer leaves the tracks alone. -/
@[simp] theorem tracks_performerFor (t : Tables) (name : String) :
    (t.performerFor name).2.tracks = t.tracks := by
  rw [performerFor]
  split <;> rfl

/-- Resolving an album leaves the tracks alone. -/
@[simp] theorem tracks_albumFor (t : Tables) (directory name : String) (year : Int32) :
    (t.albumFor directory name year).2.tracks = t.tracks := by
  rw [albumFor]
  split <;> rfl

/-! ## Rows under the constraints -/

theorem required_eq_ok {α : Type} {column : String} {o : Option α} {a : α}
    (h : required column o = .ok a) : o = some a := by
  cases o with
  | none => cases h
  | some b => exact congrArg some (Except.ok.inj h)

theorem demand_eq_ok {p : Prop} [Decidable p] {fault : Fault} {u : Unit}
    (h : demand p fault = .ok u) : p := by
  rw [demand] at h
  split at h
  · assumption
  · cases h

theorem demand_of_true {p : Prop} [Decidable p] (fault : Fault) (h : p) :
    demand p fault = .ok () :=
  if_pos h

/-- A performer of a new name is admitted. -/
theorem addPerformer_eq {t : Tables} {name : String} (h : t.performerNamed? name = none)
    (kind : PerformerKind) :
    t.addPerformer (some kind.code) (some name) = .ok (t.pushPerformer kind name) := by
  simp only [addPerformer, required, ok_bind, demand_of_true _ h,
    demand_of_true _ kind.code_mem_codes, PerformerKind.ofCode_code]
  rfl

/-- An album of a new name in its folder is admitted. -/
theorem addAlbum_eq {t : Tables} {directory name : String}
    (h : t.albumNamed? directory name = none) (year : Int) :
    t.addAlbum (some directory) (some name) (some year) =
      .ok (t.pushAlbum directory name year) := by
  simp only [addAlbum, required, ok_bind, demand_of_true _ h]
  rfl

/-! ## Resolving never fails -/

/-- **Every performer's name is resolved.** -/
theorem resolvePerformer_eq (t : Tables) (name : String) :
    t.resolvePerformer name = .ok (t.performerFor name) := by
  have hfound := performerNamed?_performerFor t name
  rw [performerFor] at hfound ⊢
  rw [resolvePerformer]
  cases h : t.performerNamed? (Text.trim name) with
  | some id => simp [found, h]
  | none =>
    rw [h] at hfound
    simp [found, addPerformer_eq h, hfound, ok_bind]

/-- **Every album's name is resolved**, in every folder. -/
theorem resolveAlbum_eq (t : Tables) (directory name : String) (year : Int32) :
    t.resolveAlbum directory name year = .ok (t.albumFor directory name year) := by
  have hfound := albumNamed?_albumFor t directory name year
  rw [albumFor] at hfound ⊢
  rw [resolveAlbum]
  cases h : t.albumNamed? directory name with
  | some id => simp [found, h]
  | none =>
    rw [h] at hfound
    simp [found, addAlbum_eq h, hfound, ok_bind]

end Tables
end Fonoteca
