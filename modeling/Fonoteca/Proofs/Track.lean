import Fonoteca.Proofs.Text.Trimming
import Fonoteca.Track
import Mathlib.Data.List.Induction

/-!
# Tracks that are changed

Between its file and the library a track is changed call by call: a text of it is replaced, or an
identity is assigned to it.  An identity counts once it is positive.  So zero and negative numbers
may be assigned any number of times, each in place of the one before, and the first positive number
stays.  Whether a track takes the next number hangs on its whole history and on what it came with,
not on whether it has been assigned one.

* `Track.Call` are the calls, `Track.after` is the track that a history of them leads to.
* `Track.id_run` and `Track.get_run` say what one call does to the identity and to a text,
  `Track.id_after_of_pos`, `Track.id_after_of_not_pos` and `Track.get_after` what a history does.
* **`Track.identity_settles`** : the identity and the texts of a track after any history, and which
  assignments it takes.
-/

set_option autoImplicit false

namespace Fonoteca
namespace Track

open Text (IsTrimOf isTrimOf_iff)

/-! ## Calls -/

/-- The texts of a track. -/
inductive TextField where
  | artist
  | title
  | album
  | genre
  | path
  deriving DecidableEq, Repr

namespace TextField

/-- The text of a track in this field. -/
def get : TextField → Track → String
  | .artist => Track.artist
  | .title => Track.title
  | .album => Track.album
  | .genre => Track.genre
  | .path => Track.path

/-- The track with another text in this field. -/
def set : TextField → Track → String → Track
  | .artist => withArtist
  | .title => withTitle
  | .album => withAlbum
  | .genre => withGenre
  | .path => withPath

variable (field other : TextField) (t : Track) (s : String)

/-- A text that is put into a field is trimmed, and the other fields stay as they are. -/
theorem get_set :
    field.get (other.set t s) = if other = field then Text.trim s else field.get t := by
  cases field <;> cases other <;>
    simp [get, set, withArtist, withTitle, withAlbum, withGenre, withPath]

@[simp] theorem id_set : (other.set t s).id = t.id := by
  cases other <;> rfl

@[simp] theorem get_withId (id : Int) : field.get { t with id } = field.get t := by
  cases field <;> rfl

end TextField

/-- What can be done to a track. -/
inductive Call where
  /-- A text is replaced. -/
  | set (field : TextField) (s : String)
  /-- An identity is assigned. -/
  | assign (id : Int)
  deriving DecidableEq, Repr

namespace Call

/-- Makes a call.  An assignment answers whether the track takes the identity. -/
def run : Call → Track → Option Bool × Track
  | .set field s, t => (none, field.set t s)
  | .assign id, t => (some (t.assignId id).1, (t.assignId id).2)

/-- The identity that a call assigns. -/
def id? : Call → Option Int
  | .set _ _ => none
  | .assign id => some id

/-- The text that a call puts into the field. -/
def text? (field : TextField) : Call → Option String
  | .set other s => if other = field then some s else none
  | .assign _ => none

end Call

/-- The track after a history of calls. -/
def after (t : Track) (calls : List Call) : Track :=
  calls.foldl (fun t call => (call.run t).2) t

/-- The identities that a history assigns, taken or not, in order. -/
def ids (calls : List Call) : List Int :=
  calls.filterMap Call.id?

/-- The texts that a history puts into the field, in order. -/
def texts (field : TextField) (calls : List Call) : List String :=
  calls.filterMap (Call.text? field)

/-! ## One call -/

variable {t : Track} {calls : List Call}

/-- A track with a positive identity refuses every other one and stays as it is. -/
theorem run_assign_of_pos (h : 0 < t.id) (id : Int) :
    (Call.assign id).run t = (some false, t) := by
  simp [Call.run, assignId, isPersisted, h]

/-- Any other track takes the identity. -/
theorem run_assign_of_not_pos (h : ¬ 0 < t.id) (id : Int) :
    (Call.assign id).run t = (some true, { t with id }) := by
  simp [Call.run, assignId, isPersisted, h]

/-- **One call and the identity**: a positive one stays, any other one gives way to what is
assigned. -/
theorem id_run (call : Call) (t : Track) :
    (call.run t).2.id = if 0 < t.id then t.id else call.id?.getD t.id := by
  cases call with
  | set field s =>
    rw [Call.run, TextField.id_set, Call.id?, Option.getD_none, ite_self]
  | assign id =>
    split
    · next h => rw [run_assign_of_pos h]
    · next h => rw [run_assign_of_not_pos h, Call.id?, Option.getD_some]

/-- **One call and a text**: only what is put into the field changes it. -/
theorem get_run (field : TextField) (call : Call) (t : Track) :
    field.get (call.run t).2 = ((call.text? field).map Text.trim).getD (field.get t) := by
  cases call with
  | set other s =>
    rw [Call.run, TextField.get_set, Call.text?]
    split
    · rw [Option.map_some, Option.getD_some]
    · rw [Option.map_none, Option.getD_none]
  | assign id =>
    rw [Call.text?, Option.map_none, Option.getD_none]
    by_cases h : 0 < t.id
    · rw [run_assign_of_pos h]
    · rw [run_assign_of_not_pos h, TextField.get_withId]

/-! ## A history of calls -/

theorem after_cons (t : Track) (call : Call) (calls : List Call) :
    t.after (call :: calls) = (call.run t).2.after calls :=
  rfl

theorem after_append (t : Track) (calls later : List Call) :
    t.after (calls ++ later) = (t.after calls).after later :=
  List.foldl_append

theorem after_concat (t : Track) (calls : List Call) (call : Call) :
    t.after (calls ++ [call]) = (call.run (t.after calls)).2 :=
  after_append t calls [call]

/-- The last of what calls give is what the last call gives, if it gives anything. -/
theorem getLast?_filterMap_concat {α : Type} (f : Call → Option α) (calls : List Call)
    (call : Call) :
    ((calls ++ [call]).filterMap f).getLast? = (f call).or (calls.filterMap f).getLast? := by
  rw [List.filterMap_append, List.getLast?_append]
  cases h : f call with
  | none => simp [h]
  | some a => simp [h]

/-- **A positive identity stays.** -/
theorem id_after_of_pos (h : 0 < t.id) (calls : List Call) : (t.after calls).id = t.id := by
  induction calls using List.reverseRecOn with
  | nil => rfl
  | append_singleton calls call ih =>
    rw [after_concat, id_run, ih, if_pos h]

/-- An identity that is not positive at last was not positive before. -/
theorem not_pos_of_append {later : List Call} (h : ¬ 0 < (t.after (calls ++ later)).id) :
    ¬ 0 < (t.after calls).id := by
  intro hpos
  rw [after_append, id_after_of_pos hpos] at h
  exact h hpos

/-- A positive identity is the first positive one of those that the track came with or was
given. -/
theorem find?_ids_of_pos (h : 0 < (t.after calls).id) :
    (t.id :: ids calls).find? (0 < ·) = some (t.after calls).id := by
  induction calls generalizing t with
  | nil => exact List.find?_cons_of_pos (decide_eq_true h)
  | cons call calls ih =>
    by_cases hpos : 0 < t.id
    · rw [id_after_of_pos hpos]
      exact List.find?_cons_of_pos (decide_eq_true hpos)
    · -- what the call leaves stands in front of the later identities
      rw [after_cons] at h ⊢
      rw [← ih h, id_run, if_neg hpos, ids, List.filterMap_cons, ← ids]
      cases call.id? with
      | none => rfl
      | some id => exact List.find?_cons_of_neg (by simpa using hpos)

/-- **Until one is positive the last identity counts.** -/
theorem id_after_of_not_pos (h : ¬ 0 < (t.after calls).id) :
    (t.after calls).id = (ids calls).getLast?.getD t.id := by
  induction calls using List.reverseRecOn with
  | nil => rfl
  | append_singleton calls call ih =>
    have hbefore := not_pos_of_append h
    rw [after_concat, id_run, if_neg hbefore, ih hbefore, ids, ids, getLast?_filterMap_concat,
      Option.getD_or]

/-- **A text is what was put into its field last**, trimmed. -/
theorem get_after (field : TextField) (t : Track) (calls : List Call) :
    field.get (t.after calls) =
      ((texts field calls).getLast?.map Text.trim).getD (field.get t) := by
  induction calls using List.reverseRecOn with
  | nil => rfl
  | append_singleton calls call ih =>
    rw [after_concat, get_run, ih, texts, texts, getLast?_filterMap_concat, Option.map_or,
      Option.getD_or]

/-- **A track gets its identity once.**  Take any track after any history of calls.

* If its identity is positive, it is the first positive one of those that the track came with or was
  given; it stays in whatever follows, and each later assignment is refused and changes nothing.
* If it is not positive, every assignment so far was taken, the identity is the one assigned last,
  and the next assignment is taken and changes nothing else.
* Putting a text leaves the identity as it is.
* A text is what is left of the one put into its field last without the blanks around it, or the
  text that the track came with if none was put. -/
theorem identity_settles (t : Track) (calls : List Call) :
    (0 < (t.after calls).id →
      (t.id :: ids calls).find? (0 < ·) = some (t.after calls).id ∧
      ∀ later, (t.after (calls ++ later)).id = (t.after calls).id ∧
        ∀ id, (Call.assign id).run (t.after (calls ++ later)) =
          (some false, t.after (calls ++ later))) ∧
    (¬ 0 < (t.after calls).id →
      (∀ earlier id, earlier ++ [.assign id] <+: calls →
        ((Call.assign id).run (t.after earlier)).1 = some true) ∧
      (t.after calls).id = (ids calls).getLast?.getD t.id ∧
      ∀ id, (Call.assign id).run (t.after calls) = (some true, { t.after calls with id })) ∧
    (∀ field s, ((Call.set field s).run (t.after calls)).2.id = (t.after calls).id) ∧
    ∀ field : TextField,
      (∀ s, (texts field calls).getLast? = some s → IsTrimOf (field.get (t.after calls)) s) ∧
      (texts field calls = [] → field.get (t.after calls) = field.get t) := by
  refine ⟨fun hpos => ⟨find?_ids_of_pos hpos, fun later => ?_⟩,
    fun hneg => ⟨?_, id_after_of_not_pos hneg, run_assign_of_not_pos hneg⟩,
    fun field s => TextField.id_set field _ s, fun field => ⟨fun s hlast => ?_, fun hnone => ?_⟩⟩
  · have hid : (t.after (calls ++ later)).id = (t.after calls).id := by
      rw [after_append, id_after_of_pos hpos]
    exact ⟨hid, run_assign_of_pos (hid ▸ hpos)⟩
  · rintro earlier id ⟨rest, rfl⟩
    have hearlier : ¬ 0 < (t.after earlier).id := not_pos_of_append (not_pos_of_append hneg)
    rw [run_assign_of_not_pos hearlier]
  · rw [isTrimOf_iff, get_after, hlast, Option.map_some, Option.getD_some]
  · rw [get_after, hnone, List.getLast?_nil, Option.map_none, Option.getD_none]

/-- A history in which two numbers are assigned that do not count, and an artist is corrected. -/
def tentative : List Call :=
  [.set .artist " Iris", .assign 0, .assign (-3), .set .artist "Blur\t"]

/-- Zero and minus three are taken one after the other; then seven is, and nine is refused. -/
theorem identity_settles_seven :
    ¬ 0 < (({} : Track).after tentative).id ∧
      ((Call.assign (-3)).run (({} : Track).after (tentative.take 2))).1 = some true ∧
      (({} : Track).after tentative).id = -3 ∧
      IsTrimOf "Blur" "Blur\t" ∧ (({} : Track).after tentative).artist = "Blur" ∧
      (({} : Track).after tentative).title = unknown ∧
      0 < (({} : Track).after (tentative ++ [.assign 7])).id ∧
      ∀ later, (({} : Track).after (tentative ++ [.assign 7] ++ later)).id = 7 ∧
        ((Call.assign 9).run (({} : Track).after (tentative ++ [.assign 7] ++ later))).1 =
          some false := by
  obtain ⟨-, hneg, -, htexts⟩ := identity_settles {} tentative
  obtain ⟨hpos, -⟩ := identity_settles {} (tentative ++ [.assign 7])
  have hbefore : ¬ 0 < (({} : Track).after tentative).id := by decide
  have hseven : 0 < (({} : Track).after (tentative ++ [.assign 7])).id := by decide
  obtain ⟨htaken, hlast, -⟩ := hneg hbefore
  obtain ⟨-, hlater⟩ := hpos hseven
  have hartist : (({} : Track).after tentative).artist = "Blur" := by decide +kernel
  have hblur : IsTrimOf (({} : Track).after tentative).artist "Blur\t" :=
    (htexts .artist).1 _ (by decide)
  rw [hartist] at hblur
  refine ⟨hbefore, htaken _ _ ⟨tentative.drop 3, rfl⟩, hlast, hblur, hartist,
    (htexts .title).2 (by decide), hseven, fun later => ?_⟩
  obtain ⟨hid, hrefused⟩ := hlater later
  exact ⟨hid, congrArg Prod.fst (hrefused 9)⟩

end Track
end Fonoteca
