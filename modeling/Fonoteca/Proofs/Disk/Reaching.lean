import Fonoteca.Proofs.Disk.Standing
import Fonoteca.Proofs.Path

/-!
# Reaching a folder

All but the last step of a path lead through folders and links, and the last one says what to find
in the folder that is reached.

* `Disk.walk_folder`, `Disk.walk_link`, `Disk.walk_file` and `Disk.walk_none` say what one step does
  when more steps follow.
* `Disk.Reaches` says that steps lead to a folder, with so many links left to follow.
* `Disk.Reaches.walk` and `Disk.exists_reaches_of_walk` : a walk is the way to the last folder, and
  then one step more; `Disk.walk_step_cases` is all that its first step can be.
* `Disk.Reaches.mono` : what is reached in one tree is reached in every tree with its folders and
  links.
* **`Disk.Reaches.replace`** : where a link gives way to a file, what was reached is reached still,
  unless the way goes along that very link; then it ends at the file.
-/

set_option autoImplicit false

namespace Fonoteca
namespace Disk

variable {α : Type} {root root' : Entries α} {follow : Bool} {links links' : Nat}
  {here steps rest place : List Bytes} {step last : Bytes} {target : Path} {c : α}

/-! ## One step -/

/-- A step that is a name. -/
structure IsStep (step : Bytes) : Prop where
  ne_dot : step ≠ [Path.dot]
  ne_dots : step ≠ [Path.dot, Path.dot]
  fits : ¬ maxNameLength < step.length

theorem walk_nil : walk root follow links here [] = .ok here := by
  rw [walk]

theorem walk_dot : walk root follow links here ([Path.dot] :: rest) =
    walk root follow links here rest := by
  rw [walk, if_pos rfl]

theorem walk_dots : walk root follow links here ([Path.dot, Path.dot] :: rest) =
    walk root follow links here.dropLast rest := by
  rw [walk, if_neg (by decide), if_pos rfl]

theorem walk_folder (h : IsStep step)
    (hfolder : root.standing? (here ++ [step]) = some .folder) :
    walk root follow links here (step :: rest) = walk root follow links (here ++ [step]) rest := by
  obtain ⟨sub, hsub⟩ := Entries.standing?_eq_folder_iff.1 hfolder
  rw [walk, if_neg h.ne_dot, if_neg h.ne_dots, if_neg h.fits]
  dsimp only
  rw [hsub]

theorem walk_link (h : IsStep step)
    (hlink : root.standing? (here ++ [step]) = some (.link target))
    (hfollow : rest ≠ [] ∨ follow = true) :
    walk root follow (links + 1) here (step :: rest) =
      walk root follow links (if target.isAbsolute then [] else here) (target.steps ++ rest) := by
  rw [walk, if_neg h.ne_dot, if_neg h.ne_dots, if_neg h.fits]
  dsimp only
  rw [Entries.standing?_eq_link_iff.1 hlink]
  dsimp only
  rw [if_neg]
  rintro ⟨hrest, hno⟩
  rcases hfollow with hne | hyes
  · exact hne hrest
  · exact absurd (hno.symm.trans hyes) (by decide)

theorem walk_file (h : IsStep step) (hfile : root.standing? (here ++ [step]) = some (.file c))
    (hrest : rest ≠ []) : walk root follow links here (step :: rest) = .error .notFolder := by
  rw [walk, if_neg h.ne_dot, if_neg h.ne_dots, if_neg h.fits]
  dsimp only
  rw [Entries.standing?_eq_file_iff.1 hfile]
  exact if_neg hrest

theorem walk_none (h : IsStep step) (hnone : root.standing? (here ++ [step]) = none)
    (hrest : rest ≠ []) : walk root follow links here (step :: rest) = .error .notFound := by
  rw [walk, if_neg h.ne_dot, if_neg h.ne_dots, if_neg h.fits]
  dsimp only
  rw [Entries.standing?_eq_none_iff.1 hnone]
  exact if_neg hrest

/-- A last step that is a name leads to what the folder has under this name, and no further unless
this is a link. -/
theorem walk_last_step (h : IsStep step)
    (hlink : follow = true → ∀ target, root.standing? (here ++ [step]) ≠ some (.link target)) :
    walk root follow links here [step] = .ok (here ++ [step]) := by
  rw [walk, if_neg h.ne_dot, if_neg h.ne_dots, if_neg h.fits]
  dsimp only
  split
  · rw [walk]
  · next target htarget =>
    rw [if_pos]
    refine ⟨rfl, Bool.eq_false_iff.2 fun hfollow => ?_⟩
    exact hlink hfollow target (Entries.standing?_eq_link_iff.2 htarget)
  · exact if_pos rfl
  · exact if_pos rfl

/-! ## Many steps -/

/-- Steps lead from a folder to a folder: with so many links to follow at the first one, so many are
left at the last. -/
inductive Reaches (root : Entries α) : Nat → List Bytes → List Bytes → Nat → List Bytes → Prop
  | here (links : Nat) (place : List Bytes) : Reaches root links place [] links place
  | dot {links links' : Nat} {here rest place : List Bytes}
      (h : Reaches root links here rest links' place) :
      Reaches root links here ([Path.dot] :: rest) links' place
  | dots {links links' : Nat} {here rest place : List Bytes}
      (h : Reaches root links here.dropLast rest links' place) :
      Reaches root links here ([Path.dot, Path.dot] :: rest) links' place
  | folder {links links' : Nat} {here rest place : List Bytes} {step : Bytes}
      (hstep : IsStep step) (hfolder : root.standing? (here ++ [step]) = some .folder)
      (h : Reaches root links (here ++ [step]) rest links' place) :
      Reaches root links here (step :: rest) links' place
  | link {links links' : Nat} {here rest place : List Bytes} {step : Bytes} {target : Path}
      (hstep : IsStep step) (hlink : root.standing? (here ++ [step]) = some (.link target))
      (h : Reaches root links (if target.isAbsolute then [] else here) (target.steps ++ rest)
        links' place) :
      Reaches root (links + 1) here (step :: rest) links' place

namespace Reaches

/-- A walk goes on from the folder that is reached. -/
theorem walk (h : Reaches root links here steps links' place) (hrest : rest ≠ []) :
    Disk.walk root follow links here (steps ++ rest) = Disk.walk root follow links' place rest := by
  induction h with
  | here => rfl
  | dot _ ih => rw [List.cons_append, walk_dot, ih]
  | dots _ ih => rw [List.cons_append, walk_dots, ih]
  | folder hstep hfolder _ ih => rw [List.cons_append, walk_folder hstep hfolder, ih]
  | link hstep hlink _ ih =>
    rw [List.cons_append, walk_link hstep hlink (.inl (by simp [hrest])), ← List.append_assoc, ih]

/-- What is reached is a folder. -/
theorem standing?_place (h : Reaches root links here steps links' place)
    (hhere : root.standing? here = some .folder) : root.standing? place = some .folder := by
  induction h with
  | here => exact hhere
  | dot _ ih => exact ih hhere
  | dots _ ih => exact ih (Entries.standing?_dropLast (by simp [hhere]))
  | folder _ hfolder _ ih => exact ih hfolder
  | link _ _ _ ih =>
    refine ih ?_
    split
    · rfl
    · exact hhere

/-- A tree with the same folders and links, and perhaps more, lets the same be reached. -/
theorem mono (h : Reaches root links here steps links' place)
    (hfolder : ∀ q, root.standing? q = some .folder → root'.standing? q = some .folder)
    (hlink : ∀ q target, root.standing? q = some (.link target) →
      root'.standing? q = some (.link target)) :
    Reaches root' links here steps links' place := by
  induction h with
  | here => exact .here _ _
  | dot _ ih => exact .dot ih
  | dots _ ih => exact .dots ih
  | folder hstep h _ ih => exact .folder hstep (hfolder _ h) ih
  | link hstep h _ ih => exact .link hstep (hlink _ _ h) ih

/-- **A file in place of a link** leaves a way as it is, or ends it. -/
theorem replace {q : List Bytes} (h : Reaches root links here steps links' place)
    (hself : root.standing? q ≠ some .folder) (hfile : root'.standing? q = some (.file c))
    (hother : ∀ q', q' ≠ q → root.standing? q' = some .folder → root'.standing? q' = some .folder)
    (hlinks : ∀ q' target, q' ≠ q → root.standing? q' = some (.link target) →
      root'.standing? q' = some (.link target)) :
    Reaches root' links here steps links' place ∨
      (∃ target, root.standing? q = some (.link target)) ∧
      ∀ follow rest, rest ≠ [] →
        Disk.walk root' follow links here (steps ++ rest) = .error .notFolder := by
  induction h with
  | here => exact .inl (.here _ _)
  | dot _ ih =>
    refine ih.imp .dot (And.imp_right fun h follow rest hrest => ?_)
    rw [List.cons_append, walk_dot, h follow rest hrest]
  | dots _ ih =>
    refine ih.imp .dots (And.imp_right fun h follow rest hrest => ?_)
    rw [List.cons_append, walk_dots, h follow rest hrest]
  | @folder _ _ here _ _ step hstep hfolder _ ih =>
    have hne : here ++ [step] ≠ q := fun heq => hself (heq ▸ hfolder)
    have hfolder' := hother _ hne hfolder
    refine ih.imp (.folder hstep hfolder') (And.imp_right fun h follow rest hrest => ?_)
    rw [List.cons_append, walk_folder hstep hfolder', h follow rest hrest]
  | @link _ _ here steps' _ step target hstep hlink _ ih =>
    by_cases heq : here ++ [step] = q
    · refine .inr ⟨⟨target, heq ▸ hlink⟩, fun follow rest hrest => ?_⟩
      rw [List.cons_append, walk_file hstep (heq ▸ hfile) (by simp [hrest])]
    · have hlink' := hlinks _ _ heq hlink
      refine ih.imp (.link hstep hlink') (And.imp_right fun h follow rest hrest => ?_)
      rw [List.cons_append, walk_link hstep hlink' (.inl (by simp [hrest])), ← List.append_assoc,
        h follow rest hrest]

theorem dots_append (h : Reaches root links here rest links' place) (n : Nat) :
    Reaches root links here (List.replicate n [Path.dot] ++ rest) links' place := by
  induction n with
  | zero => exact h
  | succ n ih => exact .dot ih

/-- Steps that lead nowhere can be put in and left out. -/
theorem of_filter {steps' : List Bytes} (h : Reaches root links here steps links' place)
    (hempty : [] ∉ steps) (hempty' : [] ∉ steps')
    (hfilter : steps'.filter Path.leads = steps.filter Path.leads) :
    Reaches root links here steps' links' place := by
  have hleads : ∀ {step : Bytes} {rest : List Bytes}, [] ∉ step :: rest → IsStep step →
      Path.leads step = true := fun hempty hstep =>
    Path.leads_of_ne (fun hnil => hempty (hnil ▸ .head _)) hstep.ne_dot
  induction h generalizing steps' with
  | here =>
    obtain ⟨n, rfl⟩ := Path.eq_dots_of_filter_eq_nil hfilter hempty'
    rw [← List.append_nil (List.replicate n _)]
    exact (Reaches.here _ _).dots_append n
  | dot _ ih => exact ih (List.not_mem_of_not_mem_cons hempty) hempty' hfilter
  | dots _ ih =>
    rw [List.filter_cons_of_pos (by decide)] at hfilter
    obtain ⟨n, rest', rfl, hrest', hnames⟩ :=
      Path.eq_dots_append_of_filter_eq_cons hfilter hempty'
    exact (Reaches.dots (ih (List.not_mem_of_not_mem_cons hempty) hrest' hnames)).dots_append n
  | folder hstep hfolder _ ih =>
    rw [List.filter_cons_of_pos (hleads hempty hstep)] at hfilter
    obtain ⟨n, rest', rfl, hrest', hnames⟩ :=
      Path.eq_dots_append_of_filter_eq_cons hfilter hempty'
    have hrest := ih (List.not_mem_of_not_mem_cons hempty) hrest' hnames
    exact (Reaches.folder hstep hfolder hrest).dots_append n
  | @link _ _ _ _ _ _ target hstep hlink _ ih =>
    rw [List.filter_cons_of_pos (hleads hempty hstep)] at hfilter
    obtain ⟨n, rest', rfl, hrest', hnames⟩ :=
      Path.eq_dots_append_of_filter_eq_cons hfilter hempty'
    have hrest := @ih (target.steps ++ rest')
      (by simp [target.not_mem_steps, List.not_mem_of_not_mem_cons hempty])
      (by simp [target.not_mem_steps, hrest'])
      (by rw [List.filter_append, List.filter_append, hnames])
    exact (Reaches.link hstep hlink hrest).dots_append n

end Reaches

/-- The first of several steps of a walk. -/
theorem walk_step_cases (h : walk root follow links here (step :: rest) = .ok place)
    (hrest : rest ≠ []) :
    (step = [Path.dot] ∧ walk root follow links here rest = .ok place) ∨
    (step = [Path.dot, Path.dot] ∧ walk root follow links here.dropLast rest = .ok place) ∨
    (IsStep step ∧ root.standing? (here ++ [step]) = some .folder ∧
      walk root follow links (here ++ [step]) rest = .ok place) ∨
    ∃ left target, links = left + 1 ∧ IsStep step ∧
      root.standing? (here ++ [step]) = some (.link target) ∧
      walk root follow left (if target.isAbsolute then [] else here) (target.steps ++ rest) =
        .ok place := by
  by_cases hdot : step = [Path.dot]
  · subst hdot
    exact .inl ⟨rfl, by rwa [walk_dot] at h⟩
  by_cases hdots : step = [Path.dot, Path.dot]
  · subst hdots
    exact .inr (.inl ⟨rfl, by rwa [walk_dots] at h⟩)
  by_cases hlength : maxNameLength < step.length
  · rw [walk, if_neg hdot, if_neg hdots, if_pos hlength] at h
    cases h
  have hstep : IsStep step := ⟨hdot, hdots, hlength⟩
  cases hthere : root.standing? (here ++ [step]) with
  | none =>
    rw [walk_none hstep hthere hrest] at h
    cases h
  | some standing =>
    cases standing with
    | file c =>
      rw [walk_file hstep hthere hrest] at h
      cases h
    | folder => exact .inr (.inr (.inl ⟨hstep, rfl, by rwa [walk_folder hstep hthere] at h⟩))
    | link target =>
      cases links with
      | zero =>
        -- there is no link left to follow
        rw [walk, if_neg hdot, if_neg hdots, if_neg hlength] at h
        dsimp only at h
        rw [Entries.standing?_eq_link_iff.1 hthere] at h
        cases (if_neg fun hend => hrest hend.1).symm.trans h
      | succ left =>
        rw [walk_link hstep hthere (.inl hrest)] at h
        exact .inr (.inr (.inr ⟨left, target, rfl, hstep, rfl, h⟩))

/-- **A walk reaches the folder** for its last step. -/
theorem exists_reaches_of_walk {before : List Bytes}
    (h : walk root follow links here (before ++ [last]) = .ok place) :
    ∃ links' folder, Reaches root links here before links' folder ∧
      walk root follow links' folder [last] = .ok place := by
  -- a link brings steps of its own, but then one link less is left to follow
  induction links using Nat.strong_induction_on generalizing here before with
  | _ links ihLinks =>
    induction before generalizing here with
    | nil => exact ⟨links, here, .here _ _, h⟩
    | cons step before ih =>
      rw [List.cons_append] at h
      rcases walk_step_cases h (by simp) with ⟨rfl, hrest⟩ | ⟨rfl, hrest⟩ |
        ⟨hstep, hfolder, hrest⟩ | ⟨left, target, rfl, hstep, hlink, hrest⟩
      · obtain ⟨links', folder, hreach, hlast⟩ := ih hrest
        exact ⟨links', folder, .dot hreach, hlast⟩
      · obtain ⟨links', folder, hreach, hlast⟩ := ih hrest
        exact ⟨links', folder, .dots hreach, hlast⟩
      · obtain ⟨links', folder, hreach, hlast⟩ := ih hrest
        exact ⟨links', folder, .folder hstep hfolder hreach, hlast⟩
      · rw [← List.append_assoc] at hrest
        obtain ⟨links', folder, hreach, hlast⟩ := ihLinks left (Nat.lt_succ_self left) hrest
        exact ⟨links', folder, .link hstep hlink hreach, hlast⟩

/-- A walk to what is no folder ends with a step that is a name. -/
theorem exists_last_of_walk (h : walk root follow links here steps = .ok place)
    (hhere : root.standing? here = some .folder) (hplace : root.standing? place ≠ some .folder) :
    ∃ before last links' folder, steps = before ++ [last] ∧ IsStep last ∧
      Reaches root links here before links' folder ∧ root.standing? folder = some .folder ∧
      walk root follow links' folder [last] = .ok place := by
  rcases List.eq_nil_or_concat' steps with rfl | ⟨before, last, rfl⟩
  · rw [walk_nil] at h
    cases h
    exact absurd hhere hplace
  · obtain ⟨links', folder, hreach, hlast⟩ := exists_reaches_of_walk h
    have hfolder := hreach.standing?_place hhere
    refine ⟨before, last, links', folder, rfl, ⟨?_, ?_, ?_⟩, hreach, hfolder, hlast⟩
    · rintro rfl
      rw [walk_dot, walk_nil] at hlast
      cases hlast
      exact hplace hfolder
    · rintro rfl
      rw [walk_dots, walk_nil] at hlast
      cases hlast
      exact hplace (Entries.standing?_dropLast (by simp [hfolder]))
    · intro hlong
      have hdot : last ≠ [Path.dot] := by
        rintro rfl
        exact absurd hlong (by decide)
      have hdots : last ≠ [Path.dot, Path.dot] := by
        rintro rfl
        exact absurd hlong (by decide)
      rw [walk, if_neg hdot, if_neg hdots, if_pos hlong] at hlast
      cases hlast

/-! ## Paths -/

variable {d : Disk α} {p : Path} {n : Node α}

/-- The folder in which a path starts. -/
def start (d : Disk α) (p : Path) : List Bytes :=
  if p.isAbsolute then [] else d.home

/-- The folder in which relative paths start is there. -/
def IsGrounded (d : Disk α) : Prop :=
  d.root.standing? d.home = some .folder

theorem IsGrounded.standing?_start (h : d.IsGrounded) (p : Path) :
    d.root.standing? (d.start p) = some .folder := by
  rw [start]
  split
  · rfl
  · exact h

/-- A path that can be followed at all. -/
structure IsUsable (p : Path) : Prop where
  noNul : 0 ∉ p.bytes
  ne_nil : p.bytes ≠ []
  short : ¬ pathLengthLimit ≤ p.bytes.length

theorem IsUsable.locate (h : IsUsable p) (d : Disk α) (follow : Bool) :
    d.locate follow p = walk d.root follow maxLinks (d.start p) p.steps := by
  rw [Disk.locate, if_neg h.noNul, if_neg h.ne_nil, if_neg h.short, start]

theorem isUsable_of_locate (h : d.locate follow p = .ok place) : IsUsable p := by
  rw [locate] at h
  split at h
  · cases h
  split at h
  · cases h
  split at h
  · cases h
  · exact ⟨‹_›, ‹_›, ‹_›⟩

theorem node_eq_ok_iff :
    d.node follow p = .ok n ↔ ∃ place, d.locate follow p = .ok place ∧
      d.root.lookup place = some n := by
  rw [node]
  cases d.locate follow p with
  | error e => simp [bind, Except.bind]
  | ok place =>
    dsimp only [bind, Except.bind]
    cases hn : d.root.lookup place <;> simp [hn]

theorem read_eq_ok_iff :
    d.read p = .ok c ↔ ∃ place, d.locate true p = .ok place ∧
      d.root.standing? place = some (.file c) := by
  have hnode : d.read p = .ok c ↔ d.node true p = .ok (.file c) := by
    rw [read]
    cases d.node true p with
    | error e => simp [bind, Except.bind]
    | ok n => cases n <;> simp [bind, Except.bind]
  rw [hnode, node_eq_ok_iff]
  exact exists_congr fun place => and_congr_right fun _ => Entries.standing?_eq_file_iff.symm

/-- A path that leads to what is no folder ends in a name, which is looked up in the last folder on
the way. -/
theorem exists_lead_of_locate (hd : d.IsGrounded) (h : d.locate follow p = .ok place)
    (hplace : d.root.standing? place ≠ some .folder) :
    ∃ lead name links folder, p = ⟨lead ++ name⟩ ∧ Path.IsLead lead ∧ Path.IsName name ∧
      IsStep name ∧ walk d.root follow links folder [name] = .ok place := by
  have husable := isUsable_of_locate h
  rw [husable.locate] at h
  obtain ⟨before, last, links', folder, hsteps, hlast, -, -, hwalk⟩ :=
    exists_last_of_walk h (hd.standing?_start p) hplace
  have hend : p.endsInSlash = false := by
    by_contra hslash
    rw [Path.steps, if_pos (by simpa using hslash)] at hsteps
    exact hlast.ne_dot (List.cons.inj (List.append_inj' hsteps rfl).2).1.symm
  obtain ⟨lead, name, hlead, hname, rfl⟩ := Path.exists_lead husable.ne_nil hend
  rw [Path.steps_lead hlead hname] at hsteps
  obtain rfl := (List.cons.inj (List.append_inj' hsteps rfl).2).1
  exact ⟨lead, name, links', folder, rfl, hlead, hname, hlast, hwalk⟩

/-- A path that leads to a file ends in a name. -/
theorem exists_lead_of_read (hd : d.IsGrounded) (h : d.read p = .ok c) :
    ∃ lead name, p = ⟨lead ++ name⟩ ∧ Path.IsLead lead ∧ Path.IsName name ∧ IsStep name := by
  obtain ⟨place, hplace, hfile⟩ := read_eq_ok_iff.1 h
  obtain ⟨lead, name, -, -, hp, hlead, hname, hstep, -⟩ :=
    exists_lead_of_locate hd hplace (by simp [hfile])
  exact ⟨lead, name, hp, hlead, hname, hstep⟩

end Disk
end Fonoteca
