import Fonoteca.Disk.Change
import Fonoteca.Proofs.Disk.Reaching

/-!
# Making the folders of a path

The folders of a file are made where they are missing.  A disk only grows by that: all files, links
and folders stay, and what is new are empty folders.  So a file is found as before, unless its path
leaves one of the new folders again by `..`, and then goes on outside of it.

* `Disk.Grown` says that nothing but folders is new.
* `Disk.BreaksOff` says where the way of a path breaks off, at a name that is missing.
* `Disk.makeFolders_cases` : either nothing is made, or one of the folders above the path was
  missing and could be made.
* `Disk.LeavesFolders` says that each folder that a path leaves by `..` is there, so there is no
  `..` behind the name at which its way breaks off (`Disk.BreaksOff.dots_not_mem`).
* **`Disk.read_makeFolders`** : then the path leads to the same file before and after, if to any.
-/

set_option autoImplicit false

namespace Fonoteca
namespace Disk

variable {α : Type} {d d' d'' : Disk α} {p folder : Path} {c : α}

/-! ## Growing -/

/-- Nothing but folders is new on a disk. -/
structure Grown (d d' : Disk α) : Prop where
  home : d'.home = d.home
  folder : ∀ q, d.root.standing? q = some .folder → d'.root.standing? q = some .folder
  link : ∀ q target, d'.root.standing? q = some (.link target) ↔
    d.root.standing? q = some (.link target)
  file : ∀ q c, d'.root.standing? q = some (.file c) ↔ d.root.standing? q = some (.file c)

namespace Grown

theorem refl (d : Disk α) : d.Grown d :=
  ⟨rfl, fun _ => id, fun _ _ => Iff.rfl, fun _ _ => Iff.rfl⟩

theorem trans (h : d.Grown d') (h' : d'.Grown d'') : d.Grown d'' where
  home := h'.home.trans h.home
  folder := fun q hq => h'.folder q (h.folder q hq)
  link := fun q target => (h'.link q target).trans (h.link q target)
  file := fun q c => (h'.file q c).trans (h.file q c)

theorem isGrounded (h : d.Grown d') (hd : d.IsGrounded) : d'.IsGrounded := by
  rw [IsGrounded, h.home]
  exact h.folder _ hd

theorem start (h : d.Grown d') (p : Path) : d'.start p = d.start p := by
  rw [Disk.start, Disk.start, h.home]

theorem reaches (h : d.Grown d') {links links' : Nat} {here steps place : List Bytes}
    (hreach : Reaches d.root links here steps links' place) :
    Reaches d'.root links here steps links' place :=
  hreach.mono h.folder fun q target => (h.link q target).2

/-- Where nothing was, there are folders at most. -/
theorem none_or_folder (h : d.Grown d') {base q : List Bytes} (hbase : d.root.standing? base = none)
    (hq : base <+: q) : d'.root.standing? q = none ∨ d'.root.standing? q = some .folder := by
  have hnone : d.root.standing? q = none := by
    by_cases hne : q = base
    · rw [hne, hbase]
    · exact Entries.standing?_eq_none_of_below (by simp [hbase]) hq hne
  cases hthere : d'.root.standing? q with
  | none => exact .inl rfl
  | some standing =>
    cases standing with
    | file c => rw [h.file, hnone] at hthere; cases hthere
    | link target => rw [h.link, hnone] at hthere; cases hthere
    | folder => exact .inr rfl

end Grown

/-! ## Making folders -/

/-- The way of a path breaks off at a name that is missing from a folder, with more steps to go. -/
structure BreaksOff (d : Disk α) (p : Path) (before : List Bytes) (name : Bytes)
    (rest : List Bytes) (links : Nat) (place : List Bytes) : Prop where
  steps : p.steps = before ++ name :: rest
  isStep : IsStep name
  reaches : Reaches d.root maxLinks (d.start p) before links place
  missing : d.root.standing? (place ++ [name]) = none

/-- A path ends in a name that is missing from a folder that is there. -/
def IsMissing (d : Disk α) (p : Path) : Prop :=
  ∃ before name links place, d.BreaksOff p before name [] links place

/-- A folder is made where it is missing. -/
theorem grown_of_makeFolder (hd : d.IsGrounded) (h : d.makeFolder p = .ok d') :
    d.IsMissing p.withoutSlashes ∧ d.Grown d' := by
  rw [makeFolder] at h
  cases hlocate : d.locate false p.withoutSlashes with
  | error e =>
    rw [hlocate] at h
    cases h
  | ok q =>
    rw [hlocate] at h
    dsimp only [bind, Except.bind] at h
    split at h
    · cases h
    next hnone =>
    cases h
    have hfree := Entries.standing?_eq_none_iff.2 hnone
    rw [(isUsable_of_locate hlocate).locate] at hlocate
    obtain ⟨before, name, links, place, hsteps, hname, hreach, hplace, hlast⟩ :=
      exists_last_of_walk hlocate (hd.standing?_start _) (by simp [hfree])
    rw [walk_last_step hname (by simp)] at hlast
    obtain rfl := Except.ok.inj hlast
    refine ⟨⟨before, name, links, place, hsteps, hname, hreach, hfree⟩, ?_⟩
    have hput : ∀ q, (d.putAt (place ++ [name]) (.folder .nil)).root.standing? q =
        if q = place ++ [name] then some .folder else d.root.standing? q := by
      refine Entries.standing?_putAt ?_ (by simp) (by simp [hfree]) ?_
      · rwa [List.dropLast_concat]
      · rintro _ ⟨⟩
        rfl
    refine ⟨rfl, fun q hq => ?_, fun q target => ?_, fun q c => ?_⟩
    · rw [hput]
      split
      · rfl
      · exact hq
    · rw [hput]
      split
      · next hq => simp [hq, hfree]
      · rfl
    · rw [hput]
      split
      · next hq => simp [hq, hfree]
      · rfl

/-- Making folders leaves a disk as it is, unless one of them is missing. -/
theorem makeFirst_cases (hd : d.IsGrounded) (ps : List Path) :
    (makeFirst ps d).2 = d ∨
      (∃ p ∈ ps, d.IsMissing p.withoutSlashes) ∧ d.Grown (makeFirst ps d).2 := by
  induction ps with
  | nil => exact .inl rfl
  | cons p holders ih =>
    have hholders : (makeFirst holders d).2 = d ∨
        (∃ q ∈ p :: holders, d.IsMissing q.withoutSlashes) ∧ d.Grown (makeFirst holders d).2 :=
      ih.imp_right (And.imp_left fun ⟨q, hq, hmissing⟩ => ⟨q, .tail _ hq, hmissing⟩)
    rw [makeFirst]
    split
    · exact .inl rfl
    split
    · next hmake =>
      obtain ⟨hmissing, hgrown⟩ := grown_of_makeFolder hd hmake
      exact .inr ⟨⟨p, .head _, hmissing⟩, hgrown⟩
    · -- the folders above it are made first
      split
      · next heq => rwa [heq] at hholders
      next heq =>
      rw [heq] at hholders
      split
      · next hmake =>
        rcases hholders with hsame | ⟨hmissing, hgrown⟩
        · change _ = d at hsame
          subst hsame
          obtain ⟨hmissing, hgrown⟩ := grown_of_makeFolder hd hmake
          exact .inr ⟨⟨p, .head _, hmissing⟩, hgrown⟩
        · have hafter := grown_of_makeFolder (hgrown.isGrounded hd) hmake
          exact .inr ⟨hmissing, hgrown.trans hafter.2⟩
      · exact hholders
    · exact .inl rfl

/-- Making the folder of a path leaves a disk as it is, unless a folder with fewer of its names is
missing. -/
theorem makeFolders_cases (hd : d.IsGrounded) (folder : Path) :
    (d.makeFolders folder).2 = d ∨
      (∃ q : Path, q.names <+: folder.names ∧ q.isAbsolute = folder.isAbsolute ∧ d.IsMissing q) ∧
        d.Grown (d.makeFolders folder).2 := by
  refine (makeFirst_cases hd folder.ancestors).imp_right (And.imp_left ?_)
  rintro ⟨q, hq, hmissing⟩
  obtain ⟨hnames, hstart⟩ := Path.names_of_mem_ancestors hq
  obtain ⟨hslashes, hslashes'⟩ := q.names_withoutSlashes
  exact ⟨_, hslashes ▸ hnames, hslashes'.trans hstart, hmissing⟩

theorem grown_makeFolders (hd : d.IsGrounded) (folder : Path) :
    d.Grown (d.makeFolders folder).2 := by
  rcases makeFolders_cases hd folder with hsame | ⟨-, hgrown⟩
  · rw [hsame]
    exact .refl d
  · exact hgrown

/-! ## Files after folders were made -/

/-- Each folder that a path leaves by `..` is there. -/
def LeavesFolders (d : Disk α) (p : Path) : Prop :=
  ∀ before after, p.steps = before ++ [Path.dot, Path.dot] :: after →
    ∃ place, walk d.root true maxLinks (d.start p) before = .ok place ∧
      d.root.standing? place = some .folder

/-- A way without `..` stays below a place that has nothing but folders below it. -/
theorem prefix_of_walk {root : Entries α} {base : List Bytes}
    (hbase : ∀ q, base <+: q → root.standing? q = none ∨ root.standing? q = some .folder)
    {follow : Bool} {links : Nat} {here steps place : List Bytes}
    (hdots : [Path.dot, Path.dot] ∉ steps) (hhere : base <+: here)
    (h : walk root follow links here steps = .ok place) : base <+: place := by
  induction steps generalizing here with
  | nil =>
    rw [walk_nil] at h
    exact Except.ok.inj h ▸ hhere
  | cons step rest ih =>
    rw [List.mem_cons, not_or] at hdots
    by_cases hdot : step = [Path.dot]
    · subst hdot
      rw [walk_dot] at h
      exact ih hdots.2 hhere h
    by_cases hlength : maxNameLength < step.length
    · rw [walk, if_neg hdot, if_neg (Ne.symm hdots.1), if_pos hlength] at h
      cases h
    have hstep : IsStep step := ⟨hdot, Ne.symm hdots.1, hlength⟩
    have hthere : base <+: here ++ [step] := hhere.trans (List.prefix_append _ _)
    rcases hbase _ hthere with hnone | hfolder
    · by_cases hrest : rest = []
      · subst hrest
        rw [walk_last_step hstep (by simp [hnone])] at h
        exact Except.ok.inj h ▸ hthere
      · rw [walk_none hstep hnone hrest] at h
        cases h
    · rw [walk_folder hstep hfolder] at h
      exact ih hdots.2 hthere h

/-- The way of a path breaks off at a folder with fewer names that is missing. -/
theorem exists_breaksOff {q : Path} {lead last : Bytes} (hlead : Path.IsLead lead)
    (hlast : Path.IsName last) (hstep : IsStep last)
    (hparent : Path.parent? ⟨lead ++ last⟩ = some folder) (hnames : q.names <+: folder.names)
    (hstart : q.isAbsolute = folder.isAbsolute) (hmissing : d.IsMissing q) :
    ∃ before name rest links place, d.BreaksOff ⟨lead ++ last⟩ before name rest links place ∧
      rest ≠ [] := by
  obtain ⟨before, name, links, place, hsteps, hname, hreach, hfree⟩ := hmissing
  obtain ⟨hfolder, habsolute⟩ := Path.names_of_parent? hparent
  obtain ⟨more, hmore⟩ := hnames
  have hq := Path.names_of_steps hsteps hname.ne_dot
  have hp := Path.names_of_steps (Path.steps_lead hlead hlast) hstep.ne_dot
  have hfilter : (Path.steps ⟨lead ++ last⟩).filter Path.leads =
      before.filter Path.leads ++ name :: (more ++ [last]) := by
    rw [hp, List.dropLast_concat] at hfolder
    rw [Path.filter_steps_eq_names, hp, ← hfolder, ← hmore, hq]
    simp
  obtain ⟨ys, zs, hys, hbefore, hzs⟩ := List.filter_eq_append_iff.1 hfilter
  have hnone := Path.not_mem_steps ⟨lead ++ last⟩
  rw [hys, List.mem_append, not_or] at hnone
  obtain ⟨n, rest, rfl, -, hrest⟩ := Path.eq_dots_append_of_filter_eq_cons hzs hnone.2
  refine ⟨ys ++ List.replicate n [Path.dot], name, rest, links, place, ⟨?_, hname, ?_, hfree⟩, ?_⟩
  · rw [hys, List.append_assoc]
  · have hsame : d.start ⟨lead ++ last⟩ = d.start q := by
      rw [start, start, ← habsolute, hstart]
    rw [hsame]
    have hempty := q.not_mem_steps
    rw [hsteps, List.mem_append, not_or] at hempty
    refine hreach.of_filter hempty.1 ?_ ?_
    · simp [hnone.1]
    · rw [List.filter_append, hbefore, List.filter_replicate_of_neg (by decide), List.append_nil]
  · rintro rfl
    simp at hrest

namespace BreaksOff

variable {before rest place : List Bytes} {name : Bytes} {links : Nat}

/-- A path whose way breaks off leads nowhere. -/
theorem read_ne (h : d.BreaksOff p before name rest links place) (hrest : rest ≠ []) :
    d.read p ≠ .ok c := by
  intro hread
  obtain ⟨found, hfound, -⟩ := read_eq_ok_iff.1 hread
  rw [(isUsable_of_locate hfound).locate, h.steps, h.reaches.walk (by simp),
    walk_none h.isStep h.missing hrest] at hfound
  cases hfound

/-- Where the way breaks off there is no folder to leave. -/
theorem dots_not_mem (h : d.BreaksOff p before name rest links place)
    (hleaves : d.LeavesFolders p) : [Path.dot, Path.dot] ∉ rest := by
  intro hmem
  obtain ⟨first, after, rfl⟩ := List.append_of_mem hmem
  obtain ⟨left, hleft, hfolder⟩ := hleaves (before ++ name :: first) after (by simp [h.steps])
  rw [h.reaches.walk (by simp)] at hleft
  by_cases hfirst : first = []
  · subst hfirst
    rw [walk_last_step h.isStep (by simp [h.missing])] at hleft
    rw [← Except.ok.inj hleft, h.missing] at hfolder
    cases hfolder
  · rw [walk_none h.isStep h.missing hfirst] at hleft
    cases hleft

/-- When folders have been made, the path leads to nothing but them. -/
theorem read_ne_of_grown (h : d.BreaksOff p before name rest links place) (hrest : rest ≠ [])
    (hleaves : d.LeavesFolders p) (hgrown : d.Grown d') : d'.read p ≠ .ok c := by
  intro hread
  obtain ⟨found, hfound, hfile⟩ := read_eq_ok_iff.1 hread
  have hbase : ∀ q, place ++ [name] <+: q →
      d'.root.standing? q = none ∨ d'.root.standing? q = some .folder :=
    fun q => hgrown.none_or_folder h.missing
  rw [(isUsable_of_locate hfound).locate, h.steps, hgrown.start,
    (hgrown.reaches h.reaches).walk (by simp)] at hfound
  rcases hbase _ (List.prefix_refl _) with hnone | hfolder
  · rw [walk_none h.isStep hnone hrest] at hfound
    cases hfound
  · rw [walk_folder h.isStep hfolder] at hfound
    have hbelow := prefix_of_walk hbase (h.dots_not_mem hleaves) (List.prefix_refl _) hfound
    rcases hbase _ hbelow with hnot | hnot <;> simp [hfile] at hnot

end BreaksOff

/-- **A path leads to a file as before** when its folders have been made, if each folder that it
leaves by `..` was there. -/
theorem read_makeFolders (hd : d.IsGrounded) (hleaves : d.LeavesFolders p)
    (hparent : p.parent? = some folder) (c : α) :
    (d.makeFolders folder).2.read p = .ok c ↔ d.read p = .ok c := by
  rcases makeFolders_cases hd folder with hsame | ⟨⟨q, hnames, hstart, hmissing⟩, hgrown⟩
  · rw [hsame]
  generalize (d.makeFolders folder).2 = d₁ at hgrown
  have hway : ∀ {d₂ : Disk α}, d₂.IsGrounded → d₂.read p = .ok c →
      ∃ before name rest links place, d.BreaksOff p before name rest links place ∧ rest ≠ [] := by
    intro d₂ hd₂ hread
    obtain ⟨lead, last, rfl, hlead, hlast, hstep⟩ := exists_lead_of_read hd₂ hread
    exact exists_breaksOff hlead hlast hstep hparent hnames hstart hmissing
  refine iff_of_false (fun hread => ?_) fun hread => ?_
  · obtain ⟨_, _, _, _, _, h, hrest⟩ := hway (hgrown.isGrounded hd) hread
    exact h.read_ne_of_grown hrest hleaves hgrown hread
  · obtain ⟨_, _, _, _, _, h, hrest⟩ := hway hd hread
    exact h.read_ne hrest hread

end Disk
end Fonoteca
