import Fonoteca.Proofs.Disk.Discovery
import Mathlib.Data.List.TakeWhile

/-!
# The names of a path

A path leads through names; empty steps and `.` lead nowhere.  Its folder leads through all of its
names but the last, and a file beside it through the same names with another one at the end.

* `Path.leads` tells the steps that lead anywhere, `Path.names` are those of a path.
* **`Path.names_of_parent?`** : the folder of a path has its names without the last one.  The
  folders above it have the first of its names (`Path.names_of_mem_ancestors`).
* `Path.exists_lead` : a path that ends in no slash is a lead with a name behind it.
* **`Path.withExtension_lead`** : with another extension the lead stays, and the name gets another
  end; `Path.withEnd_ne` : this is another name.
-/

set_option autoImplicit false

namespace Fonoteca
namespace Path

variable {p q : Path} {lead name xs ys : Bytes}

/-- Whether a step leads anywhere; an empty one and `.` do not. -/
def leads (step : Bytes) : Bool :=
  step != [] && step != [dot]

theorem leads_eq_false_iff {step : Bytes} : leads step = false ↔ step = [] ∨ step = [dot] := by
  by_cases hempty : step = [] <;> simp [leads, hempty]

theorem leads_of_ne {step : Bytes} (hempty : step ≠ []) (hdot : step ≠ [dot]) :
    leads step = true := by
  simp [leads, hempty, hdot]

/-- The steps of a path and the pieces between its slashes lead the same way. -/
theorem filter_leads_steps (p : Path) : p.steps.filter leads = (segments p.bytes).filter leads := by
  rw [steps, List.filter_append, List.filter_filter]
  have hend : (if p.endsInSlash then [[dot]] else []).filter leads = [] := by
    split <;> rfl
  rw [hend, List.append_nil]
  refine List.filter_congr fun step _ => ?_
  simp only [leads]
  by_cases hempty : step = [] <;> simp [hempty]

theorem not_mem_steps (p : Path) : [] ∉ p.steps := by
  rw [steps]
  split <;> simp

/-- Steps that lead nowhere and are not empty are dots. -/
theorem eq_replicate_dot {silent : List Bytes} (h : ∀ step ∈ silent, ¬ leads step = true)
    (hempty : [] ∉ silent) : silent = List.replicate silent.length [dot] := by
  refine List.eq_replicate_iff.2 ⟨rfl, fun step hstep => ?_⟩
  rcases leads_eq_false_iff.1 (by simpa using h step hstep) with rfl | hdot
  · exact absurd hstep hempty
  · exact hdot

theorem eq_dots_of_filter_eq_nil {steps : List Bytes} (h : steps.filter leads = [])
    (hempty : [] ∉ steps) : ∃ n, steps = List.replicate n [dot] :=
  ⟨_, eq_replicate_dot (List.filter_eq_nil_iff.1 h) hempty⟩

/-- The first step that leads anywhere comes after dots. -/
theorem eq_dots_append_of_filter_eq_cons {steps names : List Bytes} {step : Bytes}
    (h : steps.filter leads = step :: names) (hempty : [] ∉ steps) :
    ∃ n rest, steps = List.replicate n [dot] ++ step :: rest ∧ [] ∉ rest ∧
      rest.filter leads = names := by
  obtain ⟨silent, rest, rfl, hsilent, -, hrest⟩ := List.filter_eq_cons_iff.1 h
  rw [List.mem_append, List.mem_cons, not_or, not_or] at hempty
  exact ⟨_, rest, by rw [← eq_replicate_dot hsilent hempty.1], hempty.2.2, hrest⟩

/-! ## Names -/

/-- The names in some bytes that lead anywhere. -/
def namesIn (bs : Bytes) : List Bytes :=
  (segments bs).filter leads

/-- The names of a path that lead anywhere. -/
def names (p : Path) : List Bytes :=
  namesIn p.bytes

theorem filter_steps_eq_names (p : Path) : p.steps.filter leads = p.names :=
  p.filter_leads_steps

/-- A last step that leads anywhere is the last name. -/
theorem names_of_steps {before : List Bytes} (h : p.steps = before ++ [name])
    (hdot : name ≠ [dot]) : p.names = before.filter leads ++ [name] := by
  have hempty := p.not_mem_steps
  rw [h, List.mem_append, List.mem_singleton, not_or] at hempty
  rw [← filter_steps_eq_names, h, List.filter_append,
    List.filter_cons_of_pos (leads_of_ne (Ne.symm hempty.2) hdot), List.filter_nil]

theorem namesIn_append (xs ys : Bytes) :
    namesIn (xs ++ slash :: ys) = namesIn xs ++ namesIn ys := by
  rw [namesIn, segments_append, List.filter_append, namesIn, namesIn]

@[simp] theorem namesIn_nil : namesIn [] = [] :=
  rfl

theorem namesIn_slash (ys : Bytes) : namesIn (slash :: ys) = namesIn ys := by
  rw [← List.nil_append (slash :: ys), namesIn_append, namesIn_nil, List.nil_append]

/-- A piece without slashes is a name if it leads anywhere. -/
theorem namesIn_of_noSlash (h : slash ∉ name) :
    namesIn name = if leads name then [name] else [] := by
  rw [namesIn, segments_of_noSlash h]
  split <;> simp [*]

/-! ## The front -/

theorem front_append_body (p : Path) : p.front ++ p.body = p.bytes := by
  have hfront : p.front <+: p.bytes := by
    rw [front]
    split
    · exact List.nil_prefix
    · next b rest heq =>
      rw [heq]
      split
      · next hslash => exact ⟨rest, by rw [hslash]; rfl⟩
      split
      · next hdot => exact ⟨rest, by rw [hdot.1]; rfl⟩
      · exact List.nil_prefix
  rw [body, List.prefix_iff_eq_append.1 hfront]

/-- What the front of a path can be, and how the body goes on behind it. -/
theorem front_cases (p : Path) :
    p.front = [slash] ∨ (p.front = [dot] ∧ (p.body = [] ∨ p.body.head? = some slash)) ∨
      (p.front = [] ∧ p.body.head? ≠ some slash) := by
  rw [body, front]
  split
  · next heq => exact .inr (.inr ⟨rfl, by simp [heq]⟩)
  · next b rest heq =>
    split
    · exact .inl rfl
    · next hslash =>
      split
      · next hdot =>
        refine .inr (.inl ⟨rfl, ?_⟩)
        rw [heq]
        cases rest with
        | nil => exact .inl rfl
        | cons c rest => exact .inr (congrArg some hdot.2)
      · exact .inr (.inr ⟨rfl, by simp [heq, hslash]⟩)

/-- The front says nothing, before the body or the beginning of it. -/
theorem namesIn_front_append (h : xs <+: p.body) : namesIn (p.front ++ xs) = namesIn xs := by
  rcases p.front_cases with hfront | ⟨hfront, hbody⟩ | ⟨hfront, -⟩
  · rw [hfront]
    exact namesIn_slash xs
  · rw [hfront]
    cases xs with
    | nil => rfl
    | cons b xs =>
      obtain ⟨more, hmore⟩ := h
      obtain rfl : b = slash := by simpa [← hmore] using hbody
      rw [namesIn_append, namesIn_slash]
      rfl
  · rw [hfront, List.nil_append]

/-- Where a path starts is said by its front. -/
theorem isAbsolute_front_append (h : xs <+: p.body) :
    isAbsolute ⟨p.front ++ xs⟩ = p.isAbsolute := by
  have hbytes : p.isAbsolute = isAbsolute ⟨p.front ++ p.body⟩ := by
    rw [isAbsolute, isAbsolute, front_append_body]
  rw [hbytes, isAbsolute, isAbsolute]
  rcases p.front_cases with hfront | ⟨hfront, hbody⟩ | ⟨hfront, hbody⟩
  · rw [hfront]
    rfl
  · rw [hfront]
    rfl
  · rw [hfront, List.nil_append, List.nil_append]
    cases xs with
    | nil => exact (beq_eq_false_iff_ne.2 hbody).symm
    | cons b xs =>
      obtain ⟨more, hmore⟩ := h
      rw [← hmore]
      rfl

/-! ## The folder -/

theorem trimBody_isSuffix (rev : Bytes) : trimBody rev <:+ rev := by
  fun_induction trimBody rev with
  | case1 => exact List.nil_suffix
  | case2 rev name _ b rest h ih =>
    have hdrop : b :: rest <:+ rev := h ▸ List.dropWhile_suffix _
    exact ih.trans ((List.suffix_cons b rest).trans hdrop)
  | case3 => exact List.suffix_refl _

/-- Bytes up to the first separator, and what stands behind it. -/
theorem cut_cases (sep : UInt8) (bs : Bytes) :
    (bs.dropWhile (· != sep) = [] ∧ bs = bs.takeWhile (· != sep)) ∨
      ∃ rest, bs.dropWhile (· != sep) = sep :: rest ∧
        bs = bs.takeWhile (· != sep) ++ sep :: rest := by
  have hcut := List.takeWhile_append_dropWhile (p := (· != sep)) (l := bs)
  cases hdrop : bs.dropWhile (· != sep) with
  | nil =>
    rw [hdrop, List.append_nil] at hcut
    exact .inl ⟨rfl, hcut.symm⟩
  | cons b rest =>
    have hhead := List.head?_dropWhile_not (· != sep) bs
    rw [hdrop] at hhead
    obtain rfl : b = sep := by simpa using hhead
    rw [hdrop] at hcut
    exact .inr ⟨rest, rfl, hcut.symm⟩

/-- From behind, bytes without the separator are read first. -/
theorem cut_reverse_append {sep : UInt8} {ys : Bytes} (h : sep ∉ ys) (xs : Bytes) :
    (xs ++ ys).reverse.takeWhile (· != sep) =
        ys.reverse ++ xs.reverse.takeWhile (· != sep) ∧
      (xs ++ ys).reverse.dropWhile (· != sep) = xs.reverse.dropWhile (· != sep) := by
  have hpiece : ∀ b ∈ ys.reverse, (b != sep) = true := by
    intro b hb
    rw [bne_iff_ne]
    rintro rfl
    exact h (List.mem_reverse.1 hb)
  rw [List.reverse_append]
  exact ⟨List.takeWhile_append_of_pos hpiece, List.dropWhile_append_of_pos hpiece⟩

theorem not_mem_takeWhile (sep : UInt8) (bs : Bytes) :
    sep ∉ (bs.takeWhile (· != sep)).reverse := by
  intro h
  simpa using List.mem_takeWhile_imp (List.mem_reverse.1 h)

/-- Names that say nothing are trimmed, and no others. -/
theorem namesIn_trimBody (rev : Bytes) : namesIn (trimBody rev).reverse = namesIn rev.reverse := by
  have hsilent : ∀ name : Bytes, name = [] ∨ name = [dot] → namesIn name.reverse = [] := by
    rintro _ (rfl | rfl) <;> rfl
  fun_induction trimBody rev with
  | case1 rev name hname h =>
    rcases cut_cases slash rev with ⟨-, hrev⟩ | ⟨rest, hrest, -⟩
    · rw [hrev, hsilent _ hname]
      rfl
    · cases h.symm.trans hrest
  | case2 rev name hname b rest h ih =>
    rcases cut_cases slash rev with ⟨hnil, -⟩ | ⟨rest', hrest, hrev⟩
    · cases h.symm.trans hnil
    · obtain ⟨-, rfl⟩ := List.cons.inj (h.symm.trans hrest)
      rw [ih, hrev, List.reverse_append, List.reverse_cons, List.append_assoc,
        List.singleton_append, namesIn_append, hsilent _ hname, List.append_nil]
  | case3 => rfl

/-- What is left of a body ends in a name that leads somewhere. -/
theorem leads_of_trimBody {rev rest : Bytes} {b : UInt8} (h : trimBody rev = b :: rest) :
    leads ((b :: rest).takeWhile (· != slash)).reverse = true := by
  fun_induction trimBody rev with
  | case1 => cases h
  | case2 _ _ _ _ _ _ ih => exact ih h
  | case3 rev name hname =>
    rw [not_or] at hname
    rw [← h]
    exact leads_of_ne (fun hnil => hname.1 (List.reverse_eq_nil_iff.1 hnil))
      fun hdot => hname.2 (List.reverse_injective hdot)

/-- **The folder of a path** has the names of the path without the last one, and starts where it
does. -/
theorem names_of_parent? (h : p.parent? = some q) :
    q.names = p.names.dropLast ∧ q.isAbsolute = p.isAbsolute := by
  have hnames : p.names = namesIn (trimBody p.body.reverse).reverse := by
    rw [names, ← front_append_body, namesIn_front_append (List.prefix_refl _), namesIn_trimBody,
      List.reverse_reverse]
  rw [parent?, lastName?] at h
  cases htrim : trimBody p.body.reverse with
  | nil =>
    rw [htrim] at h hnames
    dsimp only at h
    split at h
    · next hfront =>
      obtain rfl := Option.some.inj h
      have habsolute := isAbsolute_front_append (p := p) List.nil_prefix
      rw [hfront] at habsolute
      exact ⟨by rw [hnames]; rfl, habsolute⟩
    · cases h
  | cons b rest =>
    rw [htrim] at h hnames
    obtain rfl := Option.some.inj h
    have hname := namesIn_of_noSlash (not_mem_takeWhile slash (b :: rest))
    rw [if_pos (leads_of_trimBody htrim)] at hname
    rcases cut_cases slash (b :: rest) with ⟨hdrop, hcut⟩ | ⟨before, hdrop, hcut⟩
    · rw [← hcut] at hname
      have hfolder : (trimBody ((List.dropWhile (· != slash) (b :: rest)).reverse.reverse.drop
          1)).reverse = [] := by
        rw [hdrop]
        simp [trimBody_nil]
      rw [hfolder, names, namesIn_front_append List.nil_prefix, hnames, hname]
      exact ⟨rfl, isAbsolute_front_append List.nil_prefix⟩
    · have hfolder : (List.dropWhile (· != slash) (b :: rest)).reverse.reverse.drop 1 = before := by
        rw [hdrop]
        simp
      have hprefix : (trimBody before).reverse <+: p.body := by
        rw [← List.reverse_suffix, List.reverse_reverse]
        refine (trimBody_isSuffix before).trans (List.IsSuffix.trans ?_ (trimBody_isSuffix _))
        rw [htrim, hcut]
        exact ⟨_, List.append_cons _ _ _ |>.symm⟩
      rw [hfolder, names, namesIn_front_append hprefix, namesIn_trimBody, hnames, hcut,
        List.reverse_append, List.reverse_cons, List.append_assoc, List.singleton_append,
        namesIn_append, hname, List.dropLast_concat]
      exact ⟨rfl, isAbsolute_front_append hprefix⟩

/-- **The folders above a path** have the first names of the path, and start where it does. -/
theorem names_of_mem_ancestors (h : q ∈ p.ancestors) :
    q.names <+: p.names ∧ q.isAbsolute = p.isAbsolute := by
  rw [ancestors] at h
  generalize p.bytes.length + 1 = n at h
  induction n generalizing p with
  | zero => cases h
  | succ n ih =>
    rw [ancestors.go, List.mem_cons] at h
    rcases h with rfl | h
    · exact ⟨List.prefix_refl _, rfl⟩
    · split at h
      · next r hr =>
        obtain ⟨hnames, habsolute⟩ := ih h
        obtain ⟨hparent, hstart⟩ := names_of_parent? hr
        exact ⟨hnames.trans (hparent ▸ List.dropLast_prefix _), habsolute.trans hstart⟩
      · cases h

theorem namesIn_append_of_slashes (xs : Bytes) (h : ∀ b ∈ ys, b = slash) :
    namesIn (xs ++ ys) = namesIn xs := by
  induction ys generalizing xs with
  | nil => rw [List.append_nil]
  | cons b ys ih =>
    obtain ⟨rfl, hys⟩ := List.forall_mem_cons.1 h
    rw [namesIn_append, ← List.nil_append ys, ih [] hys, namesIn_nil, List.append_nil]

/-- Slashes at the end of a path say nothing of where it leads. -/
theorem names_withoutSlashes (p : Path) :
    p.withoutSlashes.names = p.names ∧ p.withoutSlashes.isAbsolute = p.isAbsolute := by
  obtain ⟨rev, ys, hdrop, hbytes, hys⟩ : ∃ rev ys,
      p.bytes.reverse.dropWhile (· == slash) = rev ∧ p.bytes = rev.reverse ++ ys ∧
      ∀ b ∈ ys, b = slash := by
    refine ⟨_, (p.bytes.reverse.takeWhile (· == slash)).reverse, rfl, ?_, fun b hb => ?_⟩
    · rw [← List.reverse_append, List.takeWhile_append_dropWhile, List.reverse_reverse]
    · simpa using List.mem_takeWhile_imp (List.mem_reverse.1 hb)
  rw [withoutSlashes, hdrop]
  cases rev with
  | nil =>
    rw [List.reverse_nil] at hbytes
    have hfirst : ∀ b ∈ p.bytes.take 1, b = slash := by
      intro b hb
      rw [hbytes] at hb
      exact hys b (List.mem_of_mem_take hb)
    have hnames := namesIn_append_of_slashes [] hys
    rw [← hbytes] at hnames
    refine ⟨(namesIn_append_of_slashes [] hfirst).trans hnames.symm, ?_⟩
    rw [isAbsolute, isAbsolute]
    cases p.bytes <;> rfl
  | cons b rev =>
    refine ⟨?_, ?_⟩
    · rw [names, names, hbytes, namesIn_append_of_slashes _ hys]
    · rw [isAbsolute, isAbsolute, hbytes, List.head?_append_of_ne_nil _ (by simp)]

/-! ## The name at the end -/

/-- What can stand before the name at the end of a path: nothing, or bytes that end in a slash. -/
def IsLead (lead : Bytes) : Prop :=
  lead = [] ∨ ∃ xs, lead = xs ++ [slash]

/-- The steps before the name at the end of a path. -/
def leadSteps (lead : Bytes) : List Bytes :=
  (segments lead).filter (· ≠ [])

/-- A path that ends in no slash is a lead with a name behind it. -/
theorem exists_lead (hne : p.bytes ≠ []) (hend : p.endsInSlash = false) :
    ∃ lead name, IsLead lead ∧ IsName name ∧ p = ⟨lead ++ name⟩ := by
  have hname := not_mem_takeWhile slash p.bytes.reverse
  rcases cut_cases slash p.bytes.reverse with ⟨-, hcut⟩ | ⟨rest, -, hcut⟩
  · refine ⟨[], p.bytes, .inl rfl, ⟨hne, ?_⟩, rfl⟩
    rwa [← hcut, List.reverse_reverse] at hname
  · generalize p.bytes.reverse.takeWhile (· != slash) = rev at hname hcut
    have hbytes : p.bytes = rest.reverse ++ [slash] ++ rev.reverse := by
      rw [← List.reverse_reverse p.bytes, hcut]
      simp
    refine ⟨_, _, .inr ⟨rest.reverse, rfl⟩, ⟨?_, hname⟩, congrArg Path.mk hbytes⟩
    intro hnil
    rw [endsInSlash, hbytes, hnil] at hend
    simp at hend

section

variable (hlead : IsLead lead) (hname : IsName name)

include hname in
theorem endsInSlash_lead (lead : Bytes) : endsInSlash ⟨lead ++ name⟩ = false :=
  hname.endsInSlash_append lead

include hname in
/-- The name at the end does not say where a path starts. -/
theorem isAbsolute_lead (lead : Bytes) : isAbsolute ⟨lead ++ name⟩ = isAbsolute ⟨lead⟩ := by
  cases lead with
  | nil =>
    have hhead : name.head? ≠ some slash := fun h => hname.noSlash (List.mem_of_head? h)
    exact beq_eq_false_iff_ne.2 hhead
  | cons b lead => rfl

include hlead hname

theorem steps_lead : steps ⟨lead ++ name⟩ = leadSteps lead ++ [name] := by
  rw [steps, endsInSlash_lead hname, if_neg (by decide), List.append_nil]
  have hsegments : (segments name).filter (· ≠ []) = [name] := by
    rw [segments_of_noSlash hname.noSlash]
    simp [hname.ne_nil]
  rcases hlead with rfl | ⟨xs, rfl⟩
  · exact hsegments
  · rw [leadSteps, List.append_assoc, List.singleton_append, segments_append, segments_append,
      List.filter_append, List.filter_append, hsegments]
    simp [segments]

omit hlead in
theorem withoutSlashes_lead (lead : Bytes) :
    withoutSlashes ⟨lead ++ name⟩ = ⟨lead ++ name⟩ := by
  obtain ⟨front, b, rfl⟩ := (List.eq_nil_or_concat' name).resolve_left hname.ne_nil
  have hb : b ≠ slash := fun heq => hname.noSlash (by simp [heq])
  have hdrop : (lead ++ (front ++ [b])).reverse.dropWhile (· == slash) =
      (lead ++ (front ++ [b])).reverse := by
    rw [← List.append_assoc, List.reverse_concat, List.dropWhile_cons_of_neg (by simpa using hb)]
  rw [withoutSlashes, hdrop]
  split
  · next hnil => simp at hnil
  · rw [List.reverse_reverse]

theorem endsInDots_lead :
    endsInDots ⟨lead ++ name⟩ = (name = [dot] || name = [dot, dot]) := by
  rw [endsInDots, withoutSlashes_lead hname, steps_lead hlead hname, List.getLast?_concat]

omit hlead in
/-- The front of a path is no part of the name at its end. -/
theorem front_isPrefix_lead (hdot : name ≠ [dot]) (lead : Bytes) :
    front ⟨lead ++ name⟩ <+: lead := by
  have hbytes := front_append_body ⟨lead ++ name⟩
  rcases front_cases ⟨lead ++ name⟩ with hfront | ⟨hfront, hbody⟩ | ⟨hfront, -⟩
  · rw [hfront] at hbytes ⊢
    cases lead with
    | nil => exact absurd (by rw [show name = _ from hbytes.symm]; exact .head _) hname.noSlash
    | cons c lead => exact ⟨lead, by rw [(List.cons.inj hbytes).1]; rfl⟩
  · rw [hfront] at hbytes ⊢
    cases lead with
    | nil =>
      exfalso
      rcases hbody with hbody | hbody
      · exact hdot (by rw [show name = _ from hbytes.symm, hbody]; rfl)
      · refine hname.noSlash ?_
        rw [show name = _ from hbytes.symm]
        exact .tail _ (List.mem_of_head? hbody)
    | cons c lead => exact ⟨lead, by rw [(List.cons.inj hbytes).1]; rfl⟩
  · rw [hfront]
    exact List.nil_prefix

/-- The name at the end of a path is its last one, unless it is `.`. -/
theorem lastName?_lead (hdot : name ≠ [dot]) :
    ∃ before, lastName? ⟨lead ++ name⟩ = some (before, name) ∧
      front ⟨lead ++ name⟩ ++ before = lead := by
  obtain ⟨before, hbefore⟩ := front_isPrefix_lead hname hdot lead
  have hbody : body ⟨lead ++ name⟩ = before ++ name := by
    have hsplit : (⟨lead ++ name⟩ : Path).bytes =
        front ⟨lead ++ name⟩ ++ (before ++ name) := by
      rw [← List.append_assoc, hbefore]
    exact List.append_cancel_left ((front_append_body ⟨lead ++ name⟩).trans hsplit)
  have hrev : before.reverse.takeWhile (· != slash) = [] ∧
      before.reverse.dropWhile (· != slash) = before.reverse := by
    rcases List.eq_nil_or_concat' before with rfl | ⟨ys, b, rfl⟩
    · exact ⟨rfl, rfl⟩
    · obtain rfl : b = slash := by
        rcases hlead with rfl | ⟨xs, rfl⟩
        · simp at hbefore
        · rw [← List.append_assoc] at hbefore
          exact (List.append_inj' hbefore rfl).2 |> List.cons.inj |>.1
      simp
  obtain ⟨htake, hdrop⟩ := cut_reverse_append hname.noSlash before
  rw [hrev.1, List.append_nil] at htake
  rw [hrev.2] at hdrop
  have htrim : trimBody (before ++ name).reverse = (before ++ name).reverse := by
    rw [trimBody, htake, if_neg]
    rintro (hnil | hone)
    · exact hname.ne_nil (List.reverse_eq_nil_iff.1 hnil)
    · exact hdot (List.reverse_injective hone)
  refine ⟨before, ?_, hbefore⟩
  rw [lastName?, hbody, htrim]
  split
  · next hnil => simp [hname.ne_nil] at hnil
  · next b rest hcons =>
    dsimp only
    rw [← hcons, htake, hdrop, List.reverse_reverse, List.reverse_reverse]

end

/-! ## Another extension -/

/-- A name is divided at its last dot, if there is one and something stands before it. -/
theorem divide_cases (name : Bytes) :
    divide name = (name, none) ∨ ∃ before after, before ≠ [] ∧
      name = before ++ dot :: after ∧ divide name = (before, some after) := by
  rw [divide]
  rcases cut_cases dot name.reverse with ⟨hdrop, -⟩ | ⟨rest, hdrop, hcut⟩
  · rw [hdrop]
    exact .inl rfl
  · rw [hdrop]
    dsimp only
    split
    · exact .inl rfl
    · next hne =>
      refine .inr ⟨rest.reverse, _, by simpa using hne, ?_, rfl⟩
      simpa using congrArg List.reverse hcut

theorem divide_append {before after : Bytes} (hne : before ≠ []) (hafter : dot ∉ after) :
    divide (before ++ dot :: after) = (before, some after) := by
  obtain ⟨htake, hdrop⟩ := cut_reverse_append hafter (before ++ [dot])
  rw [List.append_assoc, List.singleton_append, List.reverse_concat] at htake hdrop
  rw [List.takeWhile_cons_of_neg (by simp), List.append_nil] at htake
  rw [List.dropWhile_cons_of_neg (by simp)] at hdrop
  rw [divide, hdrop, htake]
  dsimp only
  rw [if_neg (by simpa using hne), List.reverse_reverse, List.reverse_reverse]

/-- The name with another extension. -/
def withEnd (name : Bytes) (extension : String) : Bytes :=
  (divide name).1 ++ dot :: Text.Utf8.encode extension

/-- A name with an extension that has a dot in it is another name. -/
theorem withEnd_ne {extension : String} {before after : Bytes}
    (hextension : Text.Utf8.encode extension = before ++ dot :: after) (hafter : dot ∉ after)
    (name : Bytes) : withEnd name extension ≠ name := by
  intro h
  have hsplit : name = ((divide name).1 ++ dot :: before) ++ dot :: after := by
    refine h.symm.trans ?_
    rw [withEnd, hextension]
    simp
  have hdivide : divide (((divide name).1 ++ dot :: before) ++ dot :: after) = (_, some after) :=
    divide_append (by simp) hafter
  rw [← hsplit] at hdivide
  have hlength := congrArg (fun d => d.1.length) hdivide
  simp at hlength

section

variable (hlead : IsLead lead) (hname : IsName name)

include hlead hname

theorem fileName?_lead (hdot : name ≠ [dot]) (hdots : name ≠ [dot, dot]) :
    fileName? ⟨lead ++ name⟩ = some name := by
  obtain ⟨before, hlast, -⟩ := lastName?_lead hlead hname hdot
  rw [fileName?, hlast]
  exact if_neg hdots

theorem putExtension_lead (hdot : name ≠ [dot]) (hdots : name ≠ [dot, dot]) (extension : String) :
    putExtension ⟨lead ++ name⟩ extension = ⟨lead ++ withEnd name extension⟩ := by
  obtain ⟨before, hlast, hbefore⟩ := lastName?_lead hlead hname hdot
  rw [putExtension, hlast, stem?, fileName?_lead hlead hname hdot hdots]
  dsimp only [Option.map]
  rw [hbefore, withEnd, List.append_assoc]

/-- A name with another extension stands behind the same lead.  Where only two dots are left
without the old extension, there is no name to extend. -/
theorem withExtension_lead (hdot : name ≠ [dot]) (hdots : name ≠ [dot, dot]) (extension : String) :
    withExtension ⟨lead ++ name⟩ extension = ⟨lead ++ withEnd name extension⟩ ∨
      withExtension ⟨lead ++ name⟩ extension = ⟨lead ++ [dot, dot]⟩ := by
  rw [withExtension, extension?, fileName?_lead hlead hname hdot hdots, Option.bind_some]
  rcases divide_cases name with hdivide | ⟨stem, after, hstem, rfl, hdivide⟩
  · rw [hdivide]
    left
    dsimp only [Option.getD, List.length_nil, Nat.sub_zero]
    rw [List.take_length]
    exact putExtension_lead hlead hname hdot hdots extension
  · have hcut : (lead ++ (stem ++ dot :: after)).take
        ((lead ++ (stem ++ dot :: after)).length - after.length) = lead ++ (stem ++ [dot]) := by
      rw [show lead ++ (stem ++ dot :: after) = lead ++ (stem ++ [dot]) ++ after by simp,
        List.length_append, Nat.add_sub_cancel, List.take_left]
    rw [hdivide]
    dsimp only [Option.getD]
    rw [hcut]
    have hshort : IsName (stem ++ [dot]) := by
      refine ⟨by simp, fun h => hname.noSlash ?_⟩
      rcases List.mem_append.1 h with h | h
      · exact List.mem_append_left _ h
      · cases List.mem_singleton.1 h
    have hshortDot : stem ++ [dot] ≠ [dot] := by simpa using hstem
    by_cases hshortDots : stem ++ [dot] = [dot, dot]
    · -- what is left is the folder above
      right
      obtain ⟨before, hlast, -⟩ := lastName?_lead hlead hshort hshortDot
      rw [putExtension, hlast, stem?, fileName?, hlast]
      dsimp only
      rw [if_pos hshortDots, hshortDots]
      rfl
    · left
      rw [putExtension_lead hlead hshort hshortDot hshortDots, withEnd, withEnd, hdivide,
        divide_append hstem (by simp)]

omit hlead in
theorem isName_withEnd {extension : String} (hextension : slash ∉ Text.Utf8.encode extension) :
    IsName (withEnd name extension) := by
  refine ⟨by simp [withEnd], fun h => ?_⟩
  rcases List.mem_append.1 h with h | h
  · refine hname.noSlash ?_
    rcases divide_cases name with hdivide | ⟨stem, after, -, rfl, hdivide⟩
    · rwa [hdivide] at h
    · rw [hdivide] at h
      exact List.mem_append_left _ h
  · rcases List.mem_cons.1 h with h | h
    · cases h
    · exact hextension h

end

end Path
end Fonoteca
