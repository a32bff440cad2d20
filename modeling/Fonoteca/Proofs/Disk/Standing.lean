import Fonoteca.Proofs.Disk.Ways
import Mathlib.Data.List.Infix

/-!
# What stands at a place

A place in a tree has a file, a link or a folder, or nothing.  What a folder holds is said by the
places below it, so a tree is known from what stands at its places, and a change of one place can be
said without mention of the folders on the way to it.

* `Standing` is what stands at a place, `Entries.standing?` reads it off a tree.
* `Entries.standing?_within_of_not_below` : a change in one folder shows only at and below the name
  that it changes, and `Entries.lookup_within_append` says what it shows there.
* **`Entries.standing?_putAt`** and **`Entries.standing?_eraseAt`** : putting a node at a place and
  erasing one change this place and no other, where no folder is lost.
-/

set_option autoImplicit false

namespace Fonoteca

variable {α : Type}

/-- What stands at a place. -/
inductive Standing (α : Type) where
  | file (contents : α)
  | link (target : Path)
  | folder
  deriving DecidableEq, Repr

/-- What a node is, without what a folder holds. -/
def Node.standing : Node α → Standing α
  | .file contents => .file contents
  | .link target => .link target
  | .folder _ => .folder

namespace Entries

variable {es : Entries α} {name : Bytes} {place before q : List Bytes} {c : α} {target : Path}

/-- What stands at a place, if anything does. -/
def standing? (es : Entries α) (place : List Bytes) : Option (Standing α) :=
  (es.lookup place).map Node.standing

theorem standing?_of_lookup {n : Node α} (h : es.lookup place = some n) :
    es.standing? place = some n.standing := by
  rw [standing?, h, Option.map_some]

theorem standing?_eq_none_iff : es.standing? place = none ↔ es.lookup place = none :=
  Option.map_eq_none_iff

theorem standing?_eq_file_iff :
    es.standing? place = some (.file c) ↔ es.lookup place = some (.file c) := by
  rw [standing?]
  rcases es.lookup place with _ | _ | _ | _ <;> simp [Node.standing]

theorem standing?_eq_link_iff :
    es.standing? place = some (.link target) ↔ es.lookup place = some (.link target) := by
  rw [standing?]
  rcases es.lookup place with _ | _ | _ | _ <;> simp [Node.standing]

theorem standing?_eq_folder_iff :
    es.standing? place = some .folder ↔ ∃ sub, es.lookup place = some (.folder sub) := by
  rw [standing?]
  rcases es.lookup place with _ | _ | _ | _ <;> simp [Node.standing]

@[simp] theorem standing?_nil (es : Entries α) : es.standing? [] = some .folder :=
  rfl

theorem standing?_cons_folder {sub : Entries α} (h : es.find? name = some (.folder sub))
    (place : List Bytes) : es.standing? (name :: place) = sub.standing? place := by
  rw [standing?, lookup_cons_folder h, standing?]

/-- What stands anywhere stands in a folder. -/
theorem standing?_dropLast (h : es.standing? place ≠ none) :
    es.standing? place.dropLast = some .folder := by
  rcases List.eq_nil_or_concat' place with rfl | ⟨before, name, rfl⟩
  · rfl
  · rw [List.dropLast_concat]
    cases hn : es.lookup (before ++ [name]) with
    | none => exact absurd (standing?_eq_none_iff.2 hn) h
    | some n =>
      obtain ⟨sub, hsub, -⟩ := lookup_concat_eq_some hn
      exact standing?_of_lookup hsub

/-- What something stands below is a folder. -/
theorem standing?_of_below (h : es.standing? q ≠ none) (hbelow : place <+: q) (hne : q ≠ place) :
    es.standing? place = some .folder := by
  obtain ⟨rest, rfl⟩ := hbelow
  induction rest using List.reverseRecOn with
  | nil => exact absurd (List.append_nil _) hne
  | append_singleton rest name ih =>
    have hfolder := standing?_dropLast h
    rw [← List.append_assoc, List.dropLast_concat] at hfolder
    by_cases hrest : rest = []
    · rwa [hrest, List.append_nil] at hfolder
    · exact ih (by simp [hfolder]) (by simp [hrest])

theorem standing?_eq_none_of_below (h : es.standing? place ≠ some .folder) (hbelow : place <+: q)
    (hne : q ≠ place) : es.standing? q = none :=
  Decidable.byContradiction fun hq => h (standing?_of_below hq hbelow hne)

/-! ## Changing one folder -/

section

variable {f : Entries α → Bytes → Entries α}

/-- A change in a folder does not show elsewhere. -/
theorem standing?_within_of_not_below
    (hother : ∀ es name other, other ≠ name → (f es name).find? other = es.find? other)
    (hbelow : ¬ place <+: q) : (es.within f place).standing? q = es.standing? q := by
  fun_induction within f es place generalizing q with
  | case1 => rfl
  | case2 es name =>
    rcases q with _ | ⟨first, rest⟩
    · rfl
    · have hne : first ≠ name := by
        rintro rfl
        exact hbelow ⟨rest, rfl⟩
      rw [standing?, lookup_cons_congr (hother es name first hne), standing?]
  | case3 es name place hplace sub hsub ih =>
    rcases q with _ | ⟨first, rest⟩
    · rfl
    · by_cases hfirst : first = name
      · subst hfirst
        rw [standing?_cons_folder hsub, standing?_cons_folder (find?_put_self _ _ _)]
        exact ih fun h => hbelow (List.cons_prefix_cons.2 ⟨rfl, h⟩)
      · rw [standing?, lookup_cons_congr (find?_put_of_ne es _ hfirst), standing?]
  | case4 => rfl

/-- A change in a folder shows at the name that it changes. -/
theorem lookup_within_append {sub : Entries α} (h : es.lookup before = some (.folder sub))
    (name : Bytes) (rest : List Bytes) :
    (es.within f (before ++ [name])).lookup (before ++ name :: rest) =
      (f sub name).lookup (name :: rest) := by
  induction before generalizing es with
  | nil =>
    cases h
    rfl
  | cons first before ih =>
    obtain ⟨mid, hmid⟩ : ∃ mid, es.find? first = some (.folder mid) := by
      rw [lookup] at h
      split at h
      · cases h
      · next mid hmid => exact ⟨mid, hmid⟩
      · next n hn hfind =>
        split at h
        · cases h
          exact absurd rfl (hn _)
        · cases h
    rw [lookup_cons_folder hmid] at h
    rw [List.cons_append, within, hmid, List.cons_append, lookup_cons_folder (find?_put_self _ _ _)]
    · exact ih h
    · simp

end

/-! ## Putting and erasing -/

/-- **A node that is put at a place stands there**, and nothing else changes if no folder stood
there and the node is none that holds anything. -/
theorem standing?_putAt (hparent : es.standing? place.dropLast = some .folder) (hne : place ≠ [])
    (hself : es.standing? place ≠ some .folder) {n : Node α}
    (hn : ∀ sub, n = .folder sub → sub = .nil) (q : List Bytes) :
    (es.putAt place n).standing? q = if q = place then some n.standing else es.standing? q := by
  obtain ⟨before, name, rfl⟩ := (List.eq_nil_or_concat' place).resolve_left hne
  rw [List.dropLast_concat, standing?_eq_folder_iff] at hparent
  obtain ⟨sub, hsub⟩ := hparent
  rw [putAt_eq_within]
  by_cases hbelow : before ++ [name] <+: q
  · obtain ⟨rest, rfl⟩ := hbelow
    rw [List.append_assoc, List.singleton_append, standing?, lookup_within_append hsub, lookup,
      find?_put_self]
    cases rest with
    | nil =>
      rw [if_pos rfl]
      cases n <;> rfl
    | cons next rest =>
      have hnone := standing?_eq_none_of_below (q := before ++ name :: next :: rest) hself
        ⟨next :: rest, by simp⟩ (by simp)
      rw [if_neg (by simp), hnone]
      cases n with
      | file c => rfl
      | link target => rfl
      | folder es =>
        rw [hn es rfl]
        rfl
  · rw [standing?_within_of_not_below (fun es _ _ => find?_put_of_ne es n) hbelow, if_neg]
    rintro rfl
    exact hbelow (List.prefix_refl _)

/-- **Nothing stands at a place that was erased**, and nothing else changes if no folder stood
there. -/
theorem standing?_eraseAt (hthere : es.standing? place ≠ none)
    (hself : es.standing? place ≠ some .folder) (q : List Bytes) :
    (es.eraseAt place).standing? q = if q = place then none else es.standing? q := by
  have hne : place ≠ [] := by
    rintro rfl
    exact hself rfl
  have hparent := standing?_dropLast hthere
  obtain ⟨before, name, rfl⟩ := (List.eq_nil_or_concat' place).resolve_left hne
  rw [List.dropLast_concat, standing?_eq_folder_iff] at hparent
  obtain ⟨sub, hsub⟩ := hparent
  rw [eraseAt_eq_within]
  by_cases hbelow : before ++ [name] <+: q
  · have hnone : (es.within erase (before ++ [name])).standing? q = none := by
      obtain ⟨rest, rfl⟩ := hbelow
      rw [List.append_assoc, List.singleton_append, standing?, lookup_within_append hsub, lookup,
        find?_erase_self]
      rfl
    rw [hnone]
    split
    · rfl
    · next hq => exact (standing?_eq_none_of_below hself hbelow hq).symm
  · rw [standing?_within_of_not_below (fun es _ _ => find?_erase_of_ne es) hbelow, if_neg]
    rintro rfl
    exact hbelow (List.prefix_refl _)

end Entries
end Fonoteca
