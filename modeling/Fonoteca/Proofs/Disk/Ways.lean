import Fonoteca.Proofs.Disk.Contents

/-!
# Ways through a tree

A path leads through folders and links.  What the files on the way hold, and which files there are,
decides nothing, so a change at a place where no folder and no link stands leaves all ways as they
are.

* `Entries.way?` says how a way goes on at a place: into a folder, or along a link.
* `Entries.within` changes the folder that holds a place; `Entries.putAt` and `Entries.eraseAt` are
  such changes.
* `Entries.way?_putAt` and `Entries.way?_eraseAt` : the ways stay if none goes on at the place.
* `Entries.lookup_putAt_of_not_below` and `Entries.lookup_eraseAt_of_not_below` : files elsewhere
  stay.
* **`Disk.walk_of_ways`** : a way that leads to a place leads there in every tree with the same
  ways.
-/

set_option autoImplicit false

namespace Fonoteca

variable {α : Type}

/-- How a way goes on. -/
inductive Way where
  | folder
  | link (target : Path)
  deriving DecidableEq, Repr

/-- How a way goes on at a node; it ends at a file. -/
def Node.way? : Node α → Option Way
  | .file _ => none
  | .link target => some (.link target)
  | .folder _ => some .folder

namespace Entries

variable {es : Entries α} {name : Bytes} {place q : List Bytes} {c : α}

/-- How a way goes on at a place, if anything but a file stands there. -/
def way? (es : Entries α) (place : List Bytes) : Option Way :=
  (es.lookup place).bind Node.way?

theorem way?_of_lookup {n : Node α} (h : es.lookup place = some n) : es.way? place = n.way? := by
  rw [way?, h, Option.bind_some]

theorem way?_of_file (h : es.lookup place = some (.file c)) : es.way? place = none :=
  way?_of_lookup h

theorem way?_eq_folder_iff : es.way? place = some .folder ↔
    ∃ sub, es.lookup place = some (.folder sub) := by
  rw [way?]
  rcases es.lookup place with _ | _ | _ | _ <;> simp [Node.way?]

theorem way?_eq_link_iff {target : Path} : es.way? place = some (.link target) ↔
    es.lookup place = some (.link target) := by
  rw [way?]
  rcases es.lookup place with _ | _ | _ | _ <;> simp [Node.way?]

theorem way?_eq_none_iff : es.way? place = none ↔
    es.lookup place = none ∨ ∃ c, es.lookup place = some (.file c) := by
  rw [way?]
  rcases es.lookup place with _ | _ | _ | _ <;> simp [Node.way?]

/-- Below a name that is no folder and no link no way goes on. -/
theorem way?_cons_of_none (h : (es.find? name).bind Node.way? = none) (place : List Bytes) :
    es.way? (name :: place) = none := by
  rw [way?, lookup]
  rcases hn : es.find? name with _ | _ | _ | _
  · rfl
  · by_cases hplace : place = [] <;> simp [hplace, Node.way?]
  · simp [hn, Node.way?] at h
  · simp [hn, Node.way?] at h

/-- The first name alone decides where a look-up goes. -/
theorem lookup_cons_congr {es' : Entries α} (h : es'.find? name = es.find? name)
    (place : List Bytes) : es'.lookup (name :: place) = es.lookup (name :: place) := by
  rw [lookup, lookup, h]

theorem way?_cons_congr {es' : Entries α} (h : es'.find? name = es.find? name)
    (place : List Bytes) : es'.way? (name :: place) = es.way? (name :: place) := by
  rw [way?, way?, lookup_cons_congr h]

theorem lookup_cons_folder {sub : Entries α} (h : es.find? name = some (.folder sub))
    (place : List Bytes) : es.lookup (name :: place) = sub.lookup place := by
  rw [lookup, h]

/-- What stands at a place stands in the folder above it. -/
theorem lookup_concat_eq_some {n : Node α} (h : es.lookup (place ++ [name]) = some n) :
    ∃ sub, es.lookup place = some (.folder sub) ∧ sub.find? name = some n := by
  induction place generalizing es with
  | nil =>
    refine ⟨es, rfl, ?_⟩
    rw [List.nil_append, lookup] at h
    rcases hn : es.find? name with _ | _ | _ | _ <;> simp_all [lookup]
  | cons first place ih =>
    rw [List.cons_append, lookup] at h
    split at h
    · cases h
    · next sub hsub =>
      rw [lookup_cons_folder hsub]
      exact ih h
    · rw [if_neg (by simp)] at h
      cases h

/-! ## Changing one folder -/

/-- The tree in which the folder that holds a place is changed. -/
def within (f : Entries α → Bytes → Entries α) (es : Entries α) : List Bytes → Entries α
  | [] => es
  | [name] => f es name
  | name :: place =>
    match es.find? name with
    | some (.folder sub) => es.put name (.folder (within f sub place))
    | _ => es

theorem putAt_eq_within (es : Entries α) (place : List Bytes) (n : Node α) :
    es.putAt place n = es.within (fun es name => es.put name n) place := by
  fun_induction putAt es place n with
  | case1 => rfl
  | case2 => rfl
  | case3 es name place n hne sub hsub ih =>
    rw [within, hsub, ih]
    exact hne
  | case4 es name place n hne hfile =>
    rw [within]
    split
    · exact absurd ‹_› (hfile _)
    · rfl
    exact hne

theorem eraseAt_eq_within (es : Entries α) (place : List Bytes) :
    es.eraseAt place = es.within erase place := by
  fun_induction eraseAt es place with
  | case1 => rfl
  | case2 => rfl
  | case3 es name place hne sub hsub ih =>
    rw [within, hsub, ih]
    exact hne
  | case4 es name place hne hfile =>
    rw [within]
    split
    · exact absurd ‹_› (hfile _)
    · rfl
    exact hne

section

variable {f : Entries α → Bytes → Entries α}
  (hother : ∀ es name other, other ≠ name → (f es name).find? other = es.find? other)

include hother

/-- Files that are not below the place stay. -/
theorem lookup_within_of_not_below (hbelow : ¬ place <+: q)
    (hq : es.lookup q = some (.file c)) : (es.within f place).lookup q = some (.file c) := by
  fun_induction within f es place generalizing q with
  | case1 => exact hq
  | case2 es name =>
    rcases q with _ | ⟨first, rest⟩
    · cases hq
    · have hne : first ≠ name := by
        rintro rfl
        exact hbelow ⟨rest, rfl⟩
      rwa [lookup_cons_congr (hother es name first hne)]
  | case3 es name place hplace sub hsub ih =>
    rcases q with _ | ⟨first, rest⟩
    · cases hq
    · by_cases hfirst : first = name
      · subst hfirst
        rw [lookup_cons_folder hsub] at hq
        rw [lookup_cons_folder (find?_put_self _ _ _)]
        exact ih (fun h => hbelow (List.cons_prefix_cons.2 ⟨rfl, h⟩)) hq
      · rwa [lookup_cons_congr (find?_put_of_ne es _ hfirst)]
  | case4 => exact hq

/-- The ways stay if no way goes on at the place, before and after. -/
theorem way?_within (hself : ∀ es name, ((f es name).find? name).bind Node.way? = none)
    (h : es.way? place = none) (q : List Bytes) : (es.within f place).way? q = es.way? q := by
  fun_induction within f es place generalizing q with
  | case1 => rfl
  | case2 es name =>
    rcases q with _ | ⟨first, rest⟩
    · rfl
    · by_cases hfirst : first = name
      · subst hfirst
        have hnone : (es.find? first).bind Node.way? = none := by
          rw [way?, lookup] at h
          rcases hn : es.find? first with _ | _ | _ | _ <;> simp_all [Node.way?, lookup]
        rw [way?_cons_of_none (hself es first), way?_cons_of_none hnone]
      · exact way?_cons_congr (hother es name first hfirst) rest
  | case3 es name place hplace sub hsub ih =>
    rcases q with _ | ⟨first, rest⟩
    · rfl
    · by_cases hfirst : first = name
      · subst hfirst
        rw [way?, lookup_cons_folder hsub] at h
        rw [way?, way?, lookup_cons_folder hsub, lookup_cons_folder (find?_put_self _ _ _)]
        exact ih h rest
      · exact way?_cons_congr (find?_put_of_ne es _ hfirst) rest
  | case4 => rfl

end

/-! ## Writing and deleting a file -/

/-- Where a file stands another node can stand. -/
theorem lookup_putAt_self (h : es.lookup place = some (.file c)) (n : Node α) :
    (es.putAt place n).lookup place = some n := by
  fun_induction putAt es place n with
  | case1 => cases h
  | case2 es name n =>
    rw [lookup, find?_put_self]
    cases n <;> rfl
  | case3 es name place n hplace sub hsub ih =>
    rw [lookup_cons_folder hsub] at h
    rw [lookup_cons_folder (find?_put_self _ _ _)]
    exact ih h
  | case4 es name place n hplace hfile =>
    rw [lookup] at h
    split at h
    · cases h
    · exact absurd ‹_› (hfile _)
    · rw [if_neg hplace] at h
      cases h

theorem lookup_putAt_of_not_below (hbelow : ¬ place <+: q) (hq : es.lookup q = some (.file c))
    (n : Node α) : (es.putAt place n).lookup q = some (.file c) := by
  rw [putAt_eq_within]
  exact lookup_within_of_not_below (fun es _ _ => find?_put_of_ne es n) hbelow hq

theorem lookup_eraseAt_of_not_below (hbelow : ¬ place <+: q)
    (hq : es.lookup q = some (.file c)) : (es.eraseAt place).lookup q = some (.file c) := by
  rw [eraseAt_eq_within]
  exact lookup_within_of_not_below (fun es _ _ => find?_erase_of_ne es) hbelow hq

theorem way?_putAt (h : es.way? place = none) (contents : α) (q : List Bytes) :
    (es.putAt place (.file contents)).way? q = es.way? q := by
  rw [putAt_eq_within]
  exact way?_within (fun es _ _ => find?_put_of_ne es _) (fun es name => by simp [Node.way?]) h q

theorem way?_eraseAt (h : es.way? place = none) (q : List Bytes) :
    (es.eraseAt place).way? q = es.way? q := by
  rw [eraseAt_eq_within]
  exact way?_within (fun es _ _ => find?_erase_of_ne es) (fun es name => by simp) h q

end Entries

/-! ## Walking -/

namespace Disk

/-- A way may end with a name that stands for a file, or for nothing. -/
theorem walk_last {root : Entries α} {here : List Bytes} {step : Bytes} (hdot : step ≠ [Path.dot])
    (hdots : step ≠ [Path.dot, Path.dot]) (hlength : ¬ maxNameLength < step.length)
    (hend : root.way? (here ++ [step]) = none) (follow : Bool) (links : Nat) :
    walk root follow links here [step] = .ok (here ++ [step]) := by
  rw [walk, if_neg hdot, if_neg hdots, if_neg hlength]
  dsimp only
  rcases Entries.way?_eq_none_iff.1 hend with hnone | ⟨c, hfile⟩
  · rw [hnone]
    exact if_pos rfl
  · rw [hfile]
    exact if_pos rfl

/-- **A way leads to the same place** in every tree with the same ways. -/
theorem walk_of_ways {root root' : Entries α} (hways : ∀ q, root'.way? q = root.way? q)
    {follow : Bool} {links : Nat} {here steps place : List Bytes}
    (h : walk root follow links here steps = .ok place) :
    walk root' follow links here steps = .ok place := by
  fun_induction walk root follow links here steps with
  | case1 =>
    rw [walk]
    exact h
  | case2 links here rest ih =>
    rw [walk, if_pos rfl]
    exact ih h
  | case3 links here rest hdots ih =>
    rw [walk, if_neg hdots, if_pos rfl]
    exact ih h
  | case5 links here step rest hdot hdots hlength there sub hsub ih =>
    obtain ⟨sub', hsub'⟩ := Entries.way?_eq_folder_iff.1
      ((hways there).trans (Entries.way?_eq_folder_iff.2 ⟨sub, hsub⟩))
    rw [walk, if_neg hdot, if_neg hdots, if_neg hlength]
    dsimp only
    rw [hsub']
    exact ih h
  | case6 links here step rest hdot hdots hlength there target hlink hlast =>
    have hlink' := Entries.way?_eq_link_iff.1
      ((hways there).trans (Entries.way?_eq_link_iff.2 hlink))
    rw [walk, if_neg hdot, if_neg hdots, if_neg hlength]
    dsimp only
    rw [hlink']
    exact (if_pos hlast).trans h
  | case8 here step rest hdot hdots hlength there target hlink hlast links ih =>
    have hlink' := Entries.way?_eq_link_iff.1
      ((hways there).trans (Entries.way?_eq_link_iff.2 hlink))
    rw [walk, if_neg hdot, if_neg hdots, if_neg hlength]
    dsimp only
    rw [hlink']
    exact (if_neg hlast).trans (ih h)
  | case9 links here step hdot hdots hlength there contents hfile =>
    have hend := walk_last hdot hdots hlength
      ((hways there).trans (Entries.way?_of_file hfile)) follow links
    exact hend.trans h
  | case11 links here step hdot hdots hlength there hnone =>
    have hend := walk_last hdot hdots hlength
      ((hways there).trans (Entries.way?_eq_none_iff.2 (.inl hnone))) follow links
    exact hend.trans h
  | case4 | case7 | case10 | case12 => cases h

end Disk
end Fonoteca
