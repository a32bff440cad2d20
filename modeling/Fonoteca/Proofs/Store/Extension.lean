import Fonoteca.Proofs.Store.Permanence

/-!
# Libraries that only grow

* `Tables.Extends` says that the names of the performers, the albums and the tracks are those from
  before followed by new ones, and that the new names have no blanks around them.
* **`Tables.Additions.extends`** : this is what additions to the library do.
* So every joined row stays (`Tables.Extends.mem_joined`).  A name with blanks around it that is not
  there will never be (`Tables.Extends.performerNamed?_none`), so that looking a performer up comes
  to the same (`Tables.Extends.knownPerformer?`).
-/

set_option autoImplicit false

namespace Fonoteca
namespace Tables

/-- Performers' names, albums and tracks stay, and others are put behind them. -/
structure Extends (t u : Tables) : Prop where
  names : ∃ new, u.names = t.names ++ new ∧ ∀ entry ∈ new, Text.trim entry.2 = entry.2
  albums : t.albums <+: u.albums
  tracks : t.tracks <+: u.tracks

namespace Extends

variable {t u v : Tables}

theorem of_same (hnames : u.names = t.names) (halbums : u.albums = t.albums)
    (htracks : u.tracks = t.tracks) : Extends t u where
  names := ⟨[], by simp [hnames], by simp⟩
  albums := halbums ▸ List.prefix_refl _
  tracks := htracks ▸ List.prefix_refl _

theorem refl (t : Tables) : Extends t t :=
  of_same rfl rfl rfl

theorem trans (h : Extends t u) (h' : Extends u v) : Extends t v where
  names := by
    obtain ⟨new, hu, hnew⟩ := h.names
    obtain ⟨new', hv, hnew'⟩ := h'.names
    refine ⟨new ++ new', by rw [hv, hu, List.append_assoc], fun entry hentry => ?_⟩
    rcases List.mem_append.1 hentry with hentry | hentry
    · exact hnew entry hentry
    · exact hnew' entry hentry
  albums := h.albums.trans h'.albums
  tracks := h.tracks.trans h'.tracks

theorem keepsNames (h : Extends t u) : KeepsNames t u where
  names := by
    obtain ⟨new, hu, -⟩ := h.names
    exact ⟨new, hu.symm⟩
  albums := h.albums

end Extends

theorem Addition.extends {t u : Tables} (h : Addition t u) : Extends t u := by
  cases h with
  | performer name htrim hname =>
    exact ⟨⟨[(t.nextPerformer, name)], List.map_append, by simpa using htrim⟩,
      List.prefix_refl _, List.prefix_refl _⟩
  | album directory name year hname =>
    exact ⟨(Extends.refl t).names, List.prefix_append _ _, List.prefix_refl _⟩
  | track track performer album hclear hpath hperformer halbum =>
    exact ⟨(Extends.refl t).names, List.prefix_refl _, List.prefix_append _ _⟩
  | other hstep hnames halbums htracks => exact .of_same hnames halbums htracks

/-- **Additions only extend the library.** -/
theorem Additions.extends {t u : Tables} (h : Additions t u) : Extends t u := by
  induction h with
  | refl => exact .refl t
  | tail _ hlast ih => exact ih.trans (Addition.extends hlast)

/-! ## Performers who are known -/

/-- The number of the performer who is found by a name as it is, or else without the blanks around
it. -/
def knownPerformer? (t : Tables) (name : String) : Option Int :=
  (t.performerNamed? name).or (t.performerNamed? (Text.trim name))

theorem performer?_of_known {t : Tables} {name : String} {id : Int}
    (h : t.knownPerformer? name = some id) : (t.performer? id).isSome := by
  rcases Option.or_eq_some_iff.1 h with hname | ⟨-, hname⟩ <;>
    exact performer?_of_performerNamed? hname

namespace Extends

variable {t u : Tables}

/-- A name with blanks around it is not added. -/
theorem performerNamed?_none (h : Extends t u) {name : String} (hblanks : Text.trim name ≠ name)
    (hnone : t.performerNamed? name = none) : u.performerNamed? name = none := by
  obtain ⟨new, hu, hnew⟩ := h.names
  rw [performerNamed?_eq_find?, Option.map_eq_none_iff] at hnone ⊢
  rw [hu, List.find?_append, hnone, Option.none_or, List.find?_eq_none]
  intro entry hentry hname
  exact hblanks (of_decide_eq_true hname ▸ hnew entry hentry)

/-- A performer who is known stays the one who is found. -/
theorem knownPerformer? (h : Extends t u) {name : String} {id : Int}
    (hid : t.knownPerformer? name = some id) : u.knownPerformer? name = some id := by
  rw [Tables.knownPerformer?] at hid ⊢
  cases hname : t.performerNamed? name with
  | some found =>
    rw [hname, Option.some_or] at hid
    rw [h.keepsNames.performerNamed? hname, Option.some_or, hid]
  | none =>
    rw [hname, Option.none_or] at hid
    -- only without its blanks the name is found, and with them it will not be added
    have hblanks : Text.trim name ≠ name := by
      intro htrim
      rw [htrim, hname] at hid
      cases hid
    rw [h.performerNamed?_none hblanks hname, Option.none_or, h.keepsNames.performerNamed? hid]

/-- **A joined row stays.** -/
theorem mem_joined (h : Extends t u) (ht : Sound t) (hu : Sound u) {row : JoinedRow}
    (hrow : row ∈ t.joined) : row ∈ u.joined := by
  obtain ⟨r, hr, hshows⟩ := ht.mem_joined_iff.1 hrow
  exact hu.mem_joined_iff.2 ⟨r, h.tracks.subset hr, h.keepsNames.shows hshows⟩

end Extends
end Tables
end Fonoteca
