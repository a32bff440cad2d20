import Fonoteca.Disk.Change
import Fonoteca.Proofs.Disk.Reaching

/-!
# Writing a file and moving it

A file is written at the place that a path leads to, and moved from one place to another.  Nothing
else changes.

* `Disk.exists_of_write` and `Disk.exists_of_rename` say what is known when this was done, and
  `Disk.exists_rename_eq_ok` when a file can be moved.
* **`Disk.standing?_write`** and **`Disk.standing?_rename`** say what stands where after it.
-/

set_option autoImplicit false

namespace Fonoteca
namespace Disk

variable {α : Type} {d d' : Disk α} {p source target : Path} {c : α} {place : List Bytes}
  {name name' : Bytes}

/-- A file that was written stands where the path leads to. -/
theorem exists_of_write (h : d.write p c = .ok d') : ∃ q, d.locate true p = .ok q ∧
    d.root.standing? q ≠ some .folder ∧ d' = d.putAt q (.file c) := by
  rw [write] at h
  cases hlocate : d.locate true p with
  | error e =>
    rw [hlocate] at h
    cases h
  | ok q =>
    rw [hlocate] at h
    dsimp only [bind, Except.bind] at h
    split at h
    · cases h
    · next hno =>
      refine ⟨q, rfl, fun hfolder => ?_, (Except.ok.inj h).symm⟩
      obtain ⟨sub, hsub⟩ := Entries.standing?_eq_folder_iff.1 hfolder
      exact hno sub hsub

theorem IsGrounded.write (hd : d.IsGrounded) (h : d.write p c = .ok d') : d'.IsGrounded := by
  obtain ⟨q, -, hq, rfl⟩ := exists_of_write h
  have hbelow : ¬ q <+: d.home := by
    intro hbelow
    by_cases hhome : d.home = q
    · exact hq (hhome ▸ hd)
    · exact hq (Entries.standing?_of_below (by rw [show _ = _ from hd]; simp) hbelow hhome)
  rw [IsGrounded, putAt, Entries.putAt_eq_within, Entries.standing?_within_of_not_below
    (fun es _ _ => Entries.find?_put_of_ne es _) hbelow]
  exact hd

/-- What was moved stood at the one path, and stands at the other. -/
theorem exists_of_rename (h : d.rename source target = .ok d') : ∃ q r n,
    d.locate false source = .ok q ∧ d.locate false target.withoutSlashes = .ok r ∧
      target.endsInDots = false ∧ target.endsInSlash = false ∧ d.root.lookup q = some n ∧
      d.root.standing? r ≠ some .folder ∧
      (q ≠ r → d' = { d with root := (d.root.eraseAt q).putAt r n }) := by
  rw [rename] at h
  cases hsource : d.locate false source with
  | error e =>
    rw [hsource] at h
    cases h
  | ok q =>
    cases htarget : d.locate false target.withoutSlashes with
    | error e =>
      rw [hsource, htarget] at h
      cases h
    | ok r =>
      rw [hsource, htarget] at h
      dsimp only [bind, Except.bind] at h
      split at h
      · cases h
      next hdots =>
      split at h
      · cases h
      next n hn =>
      split at h
      · cases h
      next hslash =>
      split at h
      · cases h
      next hno =>
      refine ⟨q, r, n, rfl, rfl, by simpa using hdots, by simpa using hslash, hn, ?_, ?_⟩
      · intro hfolder
        obtain ⟨sub, hsub⟩ := Entries.standing?_eq_folder_iff.1 hfolder
        exact hno sub hsub
      · intro hne
        rw [if_neg hne] at h
        exact (Except.ok.inj h).symm

/-- A path that something was moved to ends in a name. -/
theorem exists_lead_of_rename (h : d.rename source target = .ok d') :
    ∃ lead name, target = ⟨lead ++ name⟩ ∧ Path.IsLead lead ∧ Path.IsName name ∧
      name ≠ [Path.dot] ∧ name ≠ [Path.dot, Path.dot] := by
  obtain ⟨_, r, _, -, htarget, hdots, hslash, -⟩ := exists_of_rename h
  have hne : target.bytes ≠ [] := by
    intro hnil
    refine (isUsable_of_locate htarget).ne_nil ?_
    rw [Path.withoutSlashes, hnil]
    rfl
  obtain ⟨lead, name, hlead, hname, rfl⟩ := Path.exists_lead hne hslash
  rw [Path.endsInDots_lead hlead hname] at hdots
  simp only [Bool.or_eq_false_iff, decide_eq_false_iff_not] at hdots
  exact ⟨lead, name, rfl, hlead, hname, hdots.1, hdots.2⟩

/-- What stands at a path can be moved to a name where no folder stands. -/
theorem exists_rename_eq_ok {q r : List Bytes} (hsource : d.locate false source = .ok q)
    (htarget : d.locate false target.withoutSlashes = .ok r) (hdots : target.endsInDots = false)
    (hslash : target.endsInSlash = false) (hthere : d.root.standing? q ≠ none)
    (hfree : d.root.standing? r ≠ some .folder) :
    ∃ d', d.rename source target = .ok d' := by
  obtain ⟨n, hn⟩ : ∃ n, d.root.lookup q = some n :=
    Option.ne_none_iff_exists'.1 fun hnone => hthere (Entries.standing?_eq_none_iff.2 hnone)
  rw [rename, hsource, htarget]
  dsimp only [bind, Except.bind]
  rw [hdots, hn, if_neg (by decide)]
  dsimp only
  rw [hslash, if_neg (by decide)]
  split
  · next hsub => exact absurd (Entries.standing?_of_lookup hsub) hfree
  · split
    · exact ⟨_, rfl⟩
    · exact ⟨_, rfl⟩

/-- What stands where after a file was written under a name. -/
theorem standing?_write (hplace : d.root.standing? place = some .folder)
    (hfree : d.root.standing? (place ++ [name]) ≠ some .folder) (q : List Bytes) :
    (d.putAt (place ++ [name]) (.file c)).root.standing? q =
      if q = place ++ [name] then some (.file c) else d.root.standing? q :=
  Entries.standing?_putAt (by rwa [List.dropLast_concat]) (by simp) hfree (by simp) q

/-- What stands where after a file was moved to another name of its folder. -/
theorem standing?_rename (hplace : d.root.standing? place = some .folder)
    (hfile : d.root.standing? (place ++ [name]) = some (.file c)) (hne : name ≠ name')
    (hfree : d.root.standing? (place ++ [name']) ≠ some .folder) (q : List Bytes) :
    ((d.root.eraseAt (place ++ [name])).putAt (place ++ [name']) (.file c)).standing? q =
      if q = place ++ [name'] then some (.file c)
      else if q = place ++ [name] then none
      else d.root.standing? q := by
  have herase (q : List Bytes) : (d.root.eraseAt (place ++ [name])).standing? q =
      if q = place ++ [name] then none else d.root.standing? q :=
    Entries.standing?_eraseAt (by simp [hfile]) (by simp [hfile]) q
  have hparent : (d.root.eraseAt (place ++ [name])).standing? place = some .folder := by
    rw [herase, if_neg (by simp), hplace]
  have hnot : (d.root.eraseAt (place ++ [name])).standing? (place ++ [name']) ≠ some .folder := by
    rw [herase, if_neg (by simpa using hne.symm)]
    exact hfree
  rw [Entries.standing?_putAt (by rwa [List.dropLast_concat]) (by simp) hnot (by simp), herase]
  rfl

end Disk
end Fonoteca
