import Fonoteca.Disk.Change

/-!
# What the files of a tree hold

A property of everything that the files of a tree hold stays true under each change of the tree, if
what is written has it: the changes move contents about and drop them, and make up none.

* `Node.Holds` and `Entries.Holds` say that all contents have a property.
* `Entries.Holds.find?` and `Entries.Holds.lookup` read it off, `Entries.Holds.put`,
  `Entries.Holds.erase`, `Entries.Holds.putAt` and `Entries.Holds.eraseAt` keep it.
* `Disk.Holds` says so of a disk, and `Disk.Holds.makeFolders`, `Disk.Holds.write` and
  `Disk.Holds.rename` keep it.
-/

set_option autoImplicit false

namespace Fonoteca

variable {α : Type} {P Q : α → Prop}

mutual

/-- What the files at or below a node hold has a property. -/
def Node.Holds (P : α → Prop) : Node α → Prop
  | .file contents => P contents
  | .link _ => True
  | .folder es => es.Holds P

@[inherit_doc Node.Holds]
def Entries.Holds (P : α → Prop) : Entries α → Prop
  | .nil => True
  | .cons _ node rest => node.Holds P ∧ rest.Holds P

end

mutual

theorem Node.Holds.imp (himp : ∀ a, P a → Q a) {n : Node α} (h : n.Holds P) : n.Holds Q := by
  match n, h with
  | .file contents, h => exact himp contents h
  | .link _, _ => trivial
  | .folder _, h => exact Entries.Holds.imp himp h

theorem Entries.Holds.imp (himp : ∀ a, P a → Q a) {es : Entries α} (h : es.Holds P) :
    es.Holds Q := by
  match es, h with
  | .nil, _ => trivial
  | .cons _ node rest, ⟨hnode, hrest⟩ =>
    exact ⟨Node.Holds.imp himp hnode, Entries.Holds.imp himp hrest⟩

end

namespace Entries.Holds

variable {es : Entries α} {name : Bytes} {n : Node α} {place : List Bytes}

/-! ## Looking -/

theorem find? (h : es.Holds P) (hn : es.find? name = some n) : n.Holds P := by
  fun_induction Entries.find? es name with
  | case1 => cases hn
  | case2 => exact Option.some.inj hn ▸ h.1
  | case3 _ _ _ _ _ ih => exact ih h.2 hn

theorem lookup (h : es.Holds P) (hn : es.lookup place = some n) : n.Holds P := by
  induction place generalizing es with
  | nil =>
    obtain rfl := Option.some.inj hn
    exact h
  | cons name place ih =>
    rw [Entries.lookup] at hn
    split at hn
    · cases hn
    · next hsub => exact ih (h.find? hsub) hn
    · next node _ hnode =>
      split at hn
      · exact Option.some.inj hn ▸ h.find? hnode
      · cases hn

/-! ## Changing -/

theorem put (h : es.Holds P) (hn : n.Holds P) : (es.put name n).Holds P := by
  fun_induction Entries.put es name n with
  | case1 => exact ⟨hn, trivial⟩
  | case2 => exact ⟨hn, h.2⟩
  | case3 _ _ _ _ _ _ ih => exact ⟨h.1, ih h.2 hn⟩

theorem erase (h : es.Holds P) : (es.erase name).Holds P := by
  fun_induction Entries.erase es name with
  | case1 => exact trivial
  | case2 _ _ _ ih => exact ih h.2
  | case3 _ _ _ _ _ ih => exact ⟨h.1, ih h.2⟩

theorem putAt (h : es.Holds P) (hn : n.Holds P) : (es.putAt place n).Holds P := by
  fun_induction Entries.putAt es place n with
  | case1 => exact h
  | case2 => exact h.put hn
  | case3 es name place n _ sub hsub ih => exact h.put (n := .folder _) (ih (h.find? hsub) hn)
  | case4 => exact h

theorem eraseAt (h : es.Holds P) : (es.eraseAt place).Holds P := by
  fun_induction Entries.eraseAt es place with
  | case1 => exact h
  | case2 => exact h.erase
  | case3 es name place _ sub hsub ih => exact h.put (n := .folder _) (ih (h.find? hsub))
  | case4 => exact h

end Entries.Holds

/-! ## A disk -/

namespace Disk

/-- What the files of a disk hold has a property. -/
def Holds (P : α → Prop) (d : Disk α) : Prop :=
  d.root.Holds P

namespace Holds

variable {d d' : Disk α}

theorem putAt (h : d.Holds P) {n : Node α} (hn : n.Holds P) (place : List Bytes) :
    (d.putAt place n).Holds P :=
  Entries.Holds.putAt h hn

theorem makeFolder (h : d.Holds P) {p : Path} (hd : d.makeFolder p = .ok d') : d'.Holds P := by
  rw [Disk.makeFolder] at hd
  cases hplace : d.locate false p.withoutSlashes with
  | error e =>
    rw [hplace] at hd
    cases hd
  | ok place =>
    rw [hplace] at hd
    dsimp only [bind, Except.bind] at hd
    split at hd
    · cases hd
    · cases hd
      exact h.putAt (n := .folder .nil) trivial place

theorem makeFirst (h : d.Holds P) (ps : List Path) : (Disk.makeFirst ps d).2.Holds P := by
  induction ps generalizing d with
  | nil => exact h
  | cons p holders ih =>
    rw [Disk.makeFirst]
    split
    · exact h
    split
    · next hd => exact h.makeFolder hd
    · -- the folders above are made first, and then this one
      have hholders := ih h
      split
      · next heq => exact heq ▸ hholders
      · next heq =>
        rw [heq] at hholders
        split
        · next hd => exact makeFolder hholders hd
        · exact hholders
    · exact h

theorem makeFolders (h : d.Holds P) (p : Path) : (d.makeFolders p).2.Holds P :=
  h.makeFirst _

theorem write (h : d.Holds P) {p : Path} {contents : α} (hP : P contents)
    (hd : d.write p contents = .ok d') : d'.Holds P := by
  rw [Disk.write] at hd
  cases hplace : d.locate true p with
  | error e =>
    rw [hplace] at hd
    cases hd
  | ok place =>
    rw [hplace] at hd
    dsimp only [bind, Except.bind] at hd
    split at hd
    · cases hd
    · cases hd
      exact h.putAt (n := .file contents) hP place

theorem rename (h : d.Holds P) {source target : Path} (hd : d.rename source target = .ok d') :
    d'.Holds P := by
  rw [Disk.rename] at hd
  cases hfrom : d.locate false source with
  | error e =>
    rw [hfrom] at hd
    cases hd
  | ok fromPlace =>
    cases hto : d.locate false target.withoutSlashes with
    | error e =>
      rw [hfrom, hto] at hd
      cases hd
    | ok toPlace =>
      rw [hfrom, hto] at hd
      dsimp only [bind, Except.bind] at hd
      split at hd
      · cases hd
      split at hd
      · cases hd
      next n hn =>
      split at hd
      · cases hd
      split at hd
      · cases hd
      split at hd
      · cases hd
        exact h
      · cases hd
        exact Entries.Holds.putAt (Entries.Holds.eraseAt h) (Entries.Holds.lookup h hn)

end Holds
end Disk
end Fonoteca
