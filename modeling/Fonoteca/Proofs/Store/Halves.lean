import Fonoteca.Proofs.Store.Joined
import Fonoteca.Store.Search

/-!
# The two halves of the tables

Persons, groups and memberships are kept beside performers, albums and tracks, and neither half
refers to the other.  The kinds of performers are kept in their rows, but nothing about tracks comes
from them.

* `Tables.withoutPeople` and `Tables.withoutTracks` are what is left of the tables without one half.
* `Tables.Uniform` says of a change that what it answers and what it leaves of one half comes from
  that half, `Tables.SameBut` that it leaves a half as it is.
* The lemmas below say of every look-up and of every change which half it reads and which it writes.
-/

set_option autoImplicit false

namespace Fonoteca
namespace Tables

/-- The tables without persons, groups and memberships, and without the kinds of performers. -/
def withoutPeople (t : Tables) : Tables where
  performers := t.performers.map fun p => { p with kind := .unknown }
  albums := t.albums
  tracks := t.tracks

/-- The tables without performers, albums and tracks. -/
def withoutTracks (t : Tables) : Tables where
  persons := t.persons
  groups := t.groups
  memberships := t.memberships

/-- What a change answers, and what it leaves where nothing is erased, does not depend on what is
erased. -/
def Uniform {ε α : Type} (erase : Tables → Tables) (update : Tables → Except ε (α × Tables)) :
    Prop :=
  ∀ t, (update (erase t)).map (Prod.map id erase) = (update t).map (Prod.map id erase)

/-- Only what is erased has changed. -/
def SameBut (erase : Tables → Tables) (t u : Tables) : Prop :=
  erase u = erase t

theorem SameBut.of_reflTransGen {erase : Tables → Tables} {t u : Tables}
    (h : Relation.ReflTransGen (SameBut erase) t u) : SameBut erase t u := by
  induction h with
  | refl => rfl
  | tail _ hlast ih => exact hlast.trans ih

variable {t u : Tables}

/-! ## Looking up without people -/

@[simp] theorem names_withoutPeople : t.withoutPeople.names = t.names := by
  rw [names, names, withoutPeople, List.map_map]
  rfl

@[simp] theorem performerNamed?_withoutPeople (name : String) :
    t.withoutPeople.performerNamed? name = t.performerNamed? name := by
  rw [performerNamed?, performerNamed?, withoutPeople, List.find?_map, Option.map_map]
  rfl

@[simp] theorem performer?_withoutPeople (id : Int) :
    t.withoutPeople.performer? id = (t.performer? id).map fun p => { p with kind := .unknown } := by
  rw [performer?, performer?, withoutPeople, List.find?_map]
  rfl

@[simp] theorem nextPerformer_withoutPeople : t.withoutPeople.nextPerformer = t.nextPerformer := by
  rw [nextPerformer, nextPerformer, withoutPeople, List.map_map]
  rfl

@[simp] theorem join?_withoutPeople : t.withoutPeople.join? = t.join? := by
  funext r
  have halbum : t.withoutPeople.album? r.album = t.album? r.album := rfl
  rw [join?, join?, performer?_withoutPeople, halbum]
  cases t.performer? r.performer <;> cases t.album? r.album <;> rfl

@[simp] theorem joined_withoutPeople : t.withoutPeople.joined = t.joined := by
  rw [joined, joined, join?_withoutPeople]
  rfl

@[simp] theorem blocks_withoutPeople (track : Track) (performer album : Int) :
    t.withoutPeople.blocks track performer album = t.blocks track performer album := by
  funext r
  rw [blocks, blocks, performer?_withoutPeople, Option.map_map]
  rfl

@[simp] theorem readTrack_withoutPeople (id : Int) :
    t.withoutPeople.readTrack id = t.readTrack id := by
  rw [readTrack, readTrack, joined_withoutPeople]

@[simp] theorem readTracks_withoutPeople : t.withoutPeople.readTracks = t.readTracks := by
  rw [readTracks, readTracks, joined_withoutPeople]

@[simp] theorem matching_withoutPeople (plan : Plan) (f : Filter) :
    t.withoutPeople.matching plan f = t.matching plan f := by
  simp only [matching, meetsOverlong, joined_withoutPeople]
  rfl

@[simp] theorem containing_withoutPeople (text : String) :
    t.withoutPeople.containing text = t.containing text := by
  rw [containing, containing, joined_withoutPeople]

@[simp] theorem search_withoutPeople (plan : Plan) (text : String) :
    t.withoutPeople.search plan text = t.search plan text := by
  rw [search, search]
  split
  · exact matching_withoutPeople _ _
  · exact containing_withoutPeople _

/-! ## Changes without people -/

/-- What is erased is not there to be erased again. -/
@[simp] theorem withoutPeople_withoutPeople : t.withoutPeople.withoutPeople = t.withoutPeople := by
  simp only [withoutPeople, List.map_map]
  rfl

theorem pushPerformer_withoutPeople (kind : PerformerKind) (name : String) :
    (t.withoutPeople.pushPerformer kind name).map id withoutPeople =
      (t.pushPerformer kind name).map id withoutPeople := by
  rw [pushPerformer, pushPerformer, nextPerformer_withoutPeople]
  simp only [withoutPeople, Prod.map, List.map_append, List.map_map]
  rfl

theorem pushAlbum_withoutPeople (directory name : String) (year : Int) :
    (t.withoutPeople.pushAlbum directory name year).map id withoutPeople =
      (t.pushAlbum directory name year).map id withoutPeople := by
  simp only [pushAlbum, withoutPeople, Prod.map, List.map_map]
  rfl

theorem pushTrack_withoutPeople (r : TrackRow) :
    (t.withoutPeople.pushTrack r).map id withoutPeople =
      (t.pushTrack r).map id withoutPeople := by
  simp only [pushTrack, withoutPeople, Prod.map, List.map_map]
  rfl

theorem performerFor_withoutPeople (name : String) :
    (t.withoutPeople.performerFor name).map id withoutPeople =
      (t.performerFor name).map id withoutPeople := by
  rw [performerFor, performerFor, performerNamed?_withoutPeople]
  split
  · rw [Prod.map, withoutPeople_withoutPeople]
    rfl
  · exact pushPerformer_withoutPeople _ _

theorem albumFor_withoutPeople (directory name : String) (year : Int32) :
    (t.withoutPeople.albumFor directory name year).map id withoutPeople =
      (t.albumFor directory name year).map id withoutPeople := by
  have hnamed : t.withoutPeople.albumNamed? directory name = t.albumNamed? directory name := rfl
  rw [albumFor, albumFor, hnamed]
  split
  · rw [Prod.map, withoutPeople_withoutPeople]
    rfl
  · exact pushAlbum_withoutPeople _ _ _

/-! ## Changes that may be refused -/

/-- A computation in parts goes through a function in its last part. -/
theorem map_bind_eq {ε α β γ : Type} (f : β → γ) (x : Except ε α) (g : α → Except ε β) :
    (x >>= g).map f = x >>= fun a => (g a).map f := by
  cases x <;> rfl

theorem map_pure_eq {ε α β : Type} (f : α → β) (a : α) :
    (pure a : Except ε α).map f = pure (f a) :=
  rfl

theorem uniform_resolvePerformer (name : String) :
    Uniform withoutPeople fun t => t.resolvePerformer name := by
  intro t
  simp only [resolvePerformer_eq]
  exact congrArg Except.ok (performerFor_withoutPeople name)

theorem uniform_resolveAlbum (directory name : String) (year : Int32) :
    Uniform withoutPeople fun t => t.resolveAlbum directory name year := by
  intro t
  simp only [resolveAlbum_eq]
  exact congrArg Except.ok (albumFor_withoutPeople directory name year)

theorem uniform_addPerformer (kind : Option Int) (name : Option String) :
    Uniform withoutPeople fun t => t.addPerformer kind name := by
  intro t
  simp only [addPerformer, map_bind_eq, map_pure_eq, performerNamed?_withoutPeople,
    pushPerformer_withoutPeople]

theorem uniform_addAlbum (directory name : Option String) (year : Option Int) :
    Uniform withoutPeople fun t => t.addAlbum directory name year := by
  intro t
  have hnamed : t.withoutPeople.albumNamed? = t.albumNamed? := rfl
  simp only [addAlbum, map_bind_eq, map_pure_eq, hnamed, pushAlbum_withoutPeople]

theorem uniform_addTrack (performer album : Option Int) (path title : Option String)
    (number year : Option Int) (genre : Option String) :
    Uniform withoutPeople fun t => t.addTrack performer album path title number year genre := by
  intro t
  have htracks : t.withoutPeople.tracks = t.tracks := rfl
  have halbum : t.withoutPeople.album? = t.album? := rfl
  simp only [addTrack, map_bind_eq, map_pure_eq, htracks, halbum, performer?_withoutPeople,
    Option.isSome_map, pushTrack_withoutPeople]

theorem uniform_insertTrack (track : Track) (performer album : Int) :
    Uniform withoutPeople fun t => t.insertTrack track performer album := by
  intro t
  have hadd := uniform_addTrack (some performer) (some album) (some track.path) (some track.title)
    (some track.number.toNat) (some track.year.toInt) (some track.genre) t
  -- the number of the new row is all that is told of the row
  have htold : ∀ added : Except Fault (Int × Tables),
      (do let row ← added; return (Insertion.inserted row.1, row.2)).map
          (Prod.map id withoutPeople) =
        (added.map (Prod.map id withoutPeople)).map (Prod.map Insertion.inserted id) := by
    intro added
    cases added <;> rfl
  dsimp only at hadd ⊢
  rw [insertTrack, insertTrack, joined_withoutPeople, blocks_withoutPeople]
  split
  · rw [Except.map, Except.map, Prod.map, withoutPeople_withoutPeople]
    rfl
  · exact (htold _).trans ((congrArg _ hadd).trans (htold _).symm)

theorem uniform_rewriteTrack (track : Track) (performer album : Int) :
    Uniform withoutPeople fun t => t.rewriteTrack track performer album := by
  intro t
  have htrack : t.withoutPeople.track? = t.track? := rfl
  have halbum : t.withoutPeople.album? = t.album? := rfl
  have hreplace : (t.withoutPeople.replaceTrack track performer album).withoutPeople =
      (t.replaceTrack track performer album).withoutPeople := by
    simp only [replaceTrack, withoutPeople, List.map_map]
    rfl
  dsimp only
  rw [rewriteTrack, rewriteTrack, htrack, halbum, performer?_withoutPeople, Option.isSome_map]
  split
  · rw [map_pure_eq, map_pure_eq, Prod.map, withoutPeople_withoutPeople]
    rfl
  · simp only [map_bind_eq, map_pure_eq, Prod.map, hreplace]

/-! ## Changes without tracks -/

theorem uniform_addMembership (person group : Int) :
    Uniform withoutTracks fun t => (t.addMembership person group).map ((), ·) := by
  intro t
  have hperson : t.withoutTracks.person? = t.person? := rfl
  have hgroup : t.withoutTracks.group? = t.group? := rfl
  have hmemberships : t.withoutTracks.memberships = t.memberships := rfl
  dsimp only
  rw [addMembership, addMembership, hperson, hgroup, hmemberships]
  split
  · rfl
  · simp only [map_bind_eq, map_pure_eq]
    rfl

/-! ## Changes of people -/

theorem sameBut_setKind (t : Tables) (id : Int) (kind : PerformerKind) :
    SameBut withoutPeople t (t.setKind id kind) := by
  have hperformers : (t.setKind id kind).withoutPeople.performers =
      t.withoutPeople.performers := by
    simp only [setKind, withoutPeople, List.map_map]
    refine List.map_congr_left fun p _ => ?_
    rw [Function.comp_apply]
    split <;> rfl
  exact congrArg (fun performers => ({ t.withoutPeople with performers } : Tables)) hperformers

theorem sameBut_addMembership {person group : Int} (h : t.addMembership person group = .ok u) :
    SameBut withoutPeople t u := by
  rw [addMembership] at h
  split at h
  · cases h
    rfl
  · obtain ⟨_, -, h⟩ := bind_eq_ok h
    cases h
    rfl

/-! ## Changes of tracks -/

theorem sameBut_performerFor (t : Tables) (name : String) :
    SameBut withoutTracks t (t.performerFor name).2 := by
  rw [performerFor]
  split <;> rfl

theorem sameBut_albumFor (t : Tables) (directory name : String) (year : Int32) :
    SameBut withoutTracks t (t.albumFor directory name year).2 := by
  rw [albumFor]
  split <;> rfl

theorem sameBut_addPerformer {kind : Option Int} {name : Option String} {id : Int}
    (h : t.addPerformer kind name = .ok (id, u)) : SameBut withoutTracks t u := by
  obtain ⟨k, n, -, -, -, hpush⟩ := addPerformer_eq_ok h
  rw [show u = (t.pushPerformer k n).2 from congrArg Prod.snd hpush]
  rfl

theorem sameBut_addAlbum {directory name : Option String} {year : Option Int} {id : Int}
    (h : t.addAlbum directory name year = .ok (id, u)) : SameBut withoutTracks t u := by
  obtain ⟨d, n, y, -, hpush⟩ := addAlbum_eq_ok h
  rw [show u = (t.pushAlbum d n y).2 from congrArg Prod.snd hpush]
  rfl

theorem sameBut_addTrack {performer album : Option Int} {path title : Option String}
    {number year : Option Int} {genre : Option String} {id : Int}
    (h : t.addTrack performer album path title number year genre = .ok (id, u)) :
    SameBut withoutTracks t u := by
  obtain ⟨r, -, -, -, -, -, -, -, -, -, -, hpush⟩ := addTrack_eq_ok h
  rw [show u = (t.pushTrack r).2 from congrArg Prod.snd hpush]
  rfl

theorem sameBut_insertTrack {track : Track} {performer album : Int} {i : Insertion}
    (h : t.insertTrack track performer album = .ok (i, u)) : SameBut withoutTracks t u := by
  rw [insertTrack] at h
  split at h
  · cases h
    rfl
  · obtain ⟨⟨id, v⟩, hadd, h⟩ := bind_eq_ok h
    cases h
    exact sameBut_addTrack hadd

theorem sameBut_rewriteTrack {track : Track} {performer album : Int} {written : Bool}
    (h : t.rewriteTrack track performer album = .ok (written, u)) : SameBut withoutTracks t u := by
  rw [rewriteTrack] at h
  split at h
  · cases h
    rfl
  · obtain ⟨_, -, h⟩ := bind_eq_ok h
    cases h
    rfl

end Tables
end Fonoteca
