import Fonoteca.Proofs.Path

/-!
# Going down one name

A name in a folder is written behind the folder's path, with a slash between them where there is
none.  The folder can be read off again, though not always in the spelling that it had: slashes and
dots at its end say nothing and are lost.

* `Path.IsEntry` says what a name in a folder can be, `Path.IsTextEntry` that it is also a text.
* `Path.components` are the front of a path and its names.  Going down adds to them at the end
  (**`Path.names_joinAll`**, `Path.components_joinAll`).
* `Path.tidied` is a folder as it is read off what is in it (**`Path.parent?_join`**).  It has the
  names of the folder (`Path.names_tidied`), and is a text if the folder is
  (**`Path.exists_tidied_eq_ofString`**).
-/

set_option autoImplicit false

namespace Fonoteca
namespace Path

open Text

variable {p q : Path} {name : Bytes} {names names' : List Bytes}

/-- What the name of an entry in a folder can be. -/
structure IsEntry (name : Bytes) : Prop extends IsName name where
  ne_dot : name ≠ [dot]
  ne_dots : name ≠ [dot, dot]

/-- The name of an entry that is a text. -/
structure IsTextEntry (name : Bytes) : Prop extends IsEntry name, IsTextName name

/-- The front of a path, if it has one, and the names of the path that lead anywhere. -/
def components (p : Path) : List Bytes :=
  (if p.front = [] then [] else [p.front]) ++ p.names

/-! ## The lead of a path -/

/-- Before the name in it the path of a folder ends in a slash. -/
theorem exists_lead_eq (p : Path) :
    ∃ xs, p.lead = xs ++ [slash] ∧ namesIn xs = p.names := by
  rw [lead]
  split
  · next hend =>
    obtain ⟨xs, hxs⟩ := List.getLast?_eq_some_iff.1 (by simpa [endsInSlash] using hend)
    exact ⟨xs, hxs, by rw [names, hxs, namesIn_append, namesIn_nil, List.append_nil]⟩
  · exact ⟨p.bytes, rfl, rfl⟩

theorem isLead_lead (p : Path) : IsLead p.lead := by
  obtain ⟨xs, hxs, -⟩ := p.exists_lead_eq
  exact .inr ⟨xs, hxs⟩

/-- What stands behind a folder adds its names to those of the folder. -/
theorem namesIn_lead_append (p : Path) (bs : Bytes) :
    namesIn (p.lead ++ bs) = p.names ++ namesIn bs := by
  obtain ⟨xs, hxs, hnames⟩ := p.exists_lead_eq
  rw [hxs, List.append_assoc, List.singleton_append, namesIn_append, hnames]

/-- What stands behind a folder does not say where its path starts. -/
theorem front_lead_append (hne : p.bytes ≠ []) (bs : Bytes) :
    front ⟨p.lead ++ bs⟩ = p.front := by
  rcases p with ⟨_ | ⟨b, _ | ⟨c, rest⟩⟩⟩
  · exact absurd rfl hne
  · by_cases hb : b = slash <;> simp [front, lead, endsInSlash, hb]
  · have hlead : ∃ more, lead ⟨b :: c :: rest⟩ ++ bs = b :: c :: more := by
      rw [lead]
      split <;> exact ⟨_, rfl⟩
    obtain ⟨more, hmore⟩ := hlead
    rw [hmore]
    rfl

/-- Going down one name. -/
theorem join_eq (hne : p.bytes ≠ []) (h : IsName name) : p.join name = ⟨p.lead ++ name⟩ := by
  have hdown : p.joinAll [name] = _ := joinAll_cons hne (by simpa using h)
  rwa [List.flatMap_nil, List.append_nil] at hdown

theorem joinAll_concat (p : Path) (names : List Bytes) (name : Bytes) :
    p.joinAll (names ++ [name]) = (p.joinAll names).join name := by
  simp [joinAll]

theorem joinAll_ne_nil (hne : p.bytes ≠ []) (h : ∀ name ∈ names, IsName name) :
    (p.joinAll names).bytes ≠ [] := by
  cases names with
  | nil => exact hne
  | cons name names =>
    rw [joinAll_cons hne h]
    simp [(h name (.head _)).ne_nil]

/-! ## Components -/

theorem IsEntry.leads (h : IsEntry name) : leads name = true :=
  leads_of_ne h.ne_nil h.ne_dot

/-- Going down does not change where a path starts. -/
theorem front_joinAll (hne : p.bytes ≠ []) (h : ∀ name ∈ names, IsName name) :
    (p.joinAll names).front = p.front := by
  cases names with
  | nil => rfl
  | cons name names => rw [joinAll_cons hne h, front_lead_append hne]

/-- **Going down adds the names** at the end. -/
theorem names_joinAll (hne : p.bytes ≠ []) (h : ∀ name ∈ names, IsEntry name) :
    (p.joinAll names).names = p.names ++ names := by
  cases names with
  | nil => exact (List.append_nil _).symm
  | cons name names =>
    rw [joinAll_cons hne fun n hn => (h n hn).toIsName, Path.names, namesIn_lead_append, namesIn,
      segments_names fun n hn => (h n hn).noSlash,
      List.filter_eq_self.2 fun n hn => (h n hn).leads]

theorem names_join (hne : p.bytes ≠ []) (h : IsEntry name) :
    (p.join name).names = p.names ++ [name] := by
  have hdown : (p.joinAll [name]).names = _ := names_joinAll hne (by simpa using h)
  exact hdown

theorem components_joinAll (hne : p.bytes ≠ []) (h : ∀ name ∈ names, IsEntry name) :
    (p.joinAll names).components = p.components ++ names := by
  rw [components, components, front_joinAll hne fun n hn => (h n hn).toIsName,
    names_joinAll hne h, List.append_assoc]

/-! ## The folder read off again -/

/-- The path of a folder without what says nothing at its end, as it is read off the path of what is
in the folder. -/
def tidied (p : Path) : Path :=
  ⟨p.front ++ (trimBody ((p.lead.drop p.front.length).reverse.drop 1)).reverse⟩

/-- **The folder of what is in a folder** is this folder, tidied. -/
theorem parent?_join (hne : p.bytes ≠ []) (h : IsEntry name) :
    (p.join name).parent? = some p.tidied := by
  obtain ⟨before, hlast, hbefore⟩ := lastName?_lead p.isLead_lead h.toIsName h.ne_dot
  rw [front_lead_append hne] at hbefore
  have hdrop : p.lead.drop p.front.length = before := by rw [← hbefore, List.drop_left]
  rw [join_eq hne h.toIsName, parent?, hlast]
  dsimp only
  rw [front_lead_append hne, tidied, hdrop]

/-- It leads through the same names. -/
theorem names_tidied (hne : p.bytes ≠ []) : p.tidied.names = p.names := by
  have hentry : IsEntry [0x61] := ⟨⟨by decide, by decide⟩, by decide, by decide⟩
  obtain ⟨hnames, -⟩ := names_of_parent? (parent?_join hne hentry)
  rw [hnames, names_join hne hentry, List.dropLast_concat]

/-- **Folders below a root are told apart** when they are tidied. -/
theorem tidied_joinAll_inj (hne : p.bytes ≠ []) (h : ∀ name ∈ names, IsEntry name)
    (h' : ∀ name ∈ names', IsEntry name)
    (heq : (p.joinAll names).tidied = (p.joinAll names').tidied) : names = names' := by
  have hnames := congrArg Path.names heq
  rw [names_tidied (joinAll_ne_nil hne fun n hn => (h n hn).toIsName),
    names_tidied (joinAll_ne_nil hne fun n hn => (h' n hn).toIsName), names_joinAll hne h,
    names_joinAll hne h'] at hnames
  exact List.append_cancel_left hnames

/-! ## Texts -/

theorem ofString_ne_nil {s : String} (hne : s ≠ "") : (ofString s).bytes ≠ [] :=
  fun h => hne (Utf8.encode_injective h)

/-- Trimming cuts a body at a slash, if it cuts anything and leaves anything. -/
theorem trimBody_cases (rev : Bytes) :
    trimBody rev = [] ∨ trimBody rev = rev ∨ ∃ more, rev = more ++ slash :: trimBody rev := by
  fun_induction trimBody rev with
  | case1 => exact .inl rfl
  | case2 rev name _ b rest h ih =>
    obtain ⟨rfl, hcut⟩ : b = slash ∧ rev = rev.takeWhile (· != slash) ++ slash :: rest := by
      rcases cut_cases slash rev with ⟨hnil, -⟩ | ⟨rest', hrest, hrev⟩
      · cases h.symm.trans hnil
      · obtain ⟨rfl, rfl⟩ := List.cons.inj (h.symm.trans hrest)
        exact ⟨rfl, hrev⟩
    rcases ih with hnil | hsame | ⟨more, hmore⟩
    · exact .inl hnil
    · exact .inr (.inr ⟨_, by rw [hsame]; exact hcut⟩)
    · refine .inr (.inr ⟨rev.takeWhile (· != slash) ++ slash :: more, ?_⟩)
      rw [List.append_assoc, List.cons_append, ← hmore]
      exact hcut
  | case3 => exact .inr (.inl rfl)

/-- A folder that is tidied is its front, or else its path up to some slash. -/
theorem tidied_cases (hne : p.bytes ≠ []) :
    p.tidied = ⟨p.front⟩ ∨ ∃ rest, p.lead = p.tidied.bytes ++ slash :: rest := by
  obtain ⟨before, hbefore⟩ : p.front <+: p.lead := by
    have hfront := front_lead_append hne []
    rw [List.append_nil] at hfront
    exact ⟨_, hfront ▸ front_append_body ⟨p.lead⟩⟩
  have hdrop : p.lead.drop p.front.length = before := by rw [← hbefore, List.drop_left]
  rw [tidied, hdrop]
  rcases List.eq_nil_or_concat' before with rfl | ⟨xs, b, rfl⟩
  · left
    rw [List.reverse_nil, List.drop_nil, trimBody_nil, List.reverse_nil, List.append_nil]
  -- behind the front the lead ends in a slash, which is taken off before the rest is trimmed
  obtain ⟨lead, hlead, -⟩ := p.exists_lead_eq
  obtain rfl : b = slash := by
    rw [hlead, ← List.append_assoc] at hbefore
    exact (List.cons.inj (List.append_inj' hbefore rfl).2).1
  rw [List.reverse_concat, List.drop_one, List.tail_cons]
  rcases trimBody_cases xs.reverse with hnil | hsame | ⟨more, hmore⟩
  · left
    rw [hnil, List.reverse_nil, List.append_nil]
  · refine .inr ⟨[], ?_⟩
    rw [hsame, List.reverse_reverse, ← hbefore, List.append_assoc]
  · have hxs : xs = (trimBody xs.reverse).reverse ++ slash :: more.reverse := by
      simpa using congrArg List.reverse hmore
    refine .inr ⟨more.reverse ++ [slash], ?_⟩
    rw [← hbefore]
    conv_lhs => rw [hxs]
    simp

/-- **A folder that is a text** is one when it is tidied. -/
theorem exists_tidied_eq_ofString {s : String} (hne : s ≠ "") :
    ∃ t, (ofString s).tidied = ofString t := by
  rcases tidied_cases (ofString_ne_nil hne) with hfront | ⟨rest, hrest⟩
  · rw [hfront]
    rcases (ofString s).front_cases with h | ⟨h, -⟩ | ⟨h, -⟩
    · exact ⟨"/", by rw [h]; rfl⟩
    · exact ⟨".", by rw [h]; rfl⟩
    · exact ⟨"", by rw [h]; rfl⟩
  · obtain ⟨u, hu⟩ : ∃ u, (ofString s).lead = Utf8.encode u := by
      rw [lead]
      split
      · exact ⟨s, rfl⟩
      · refine ⟨s ++ "/", ?_⟩
        rw [Utf8.encode_append]
        rfl
    obtain ⟨t, ht⟩ := Utf8.exists_eq_encode_of_append (by decide) (hu.symm.trans hrest)
    exact ⟨t, congrArg Path.mk ht⟩

end Path
end Fonoteca
