import Fonoteca.Disk.Discovery
import Fonoteca.Proofs.Text.Encoding
import Mathlib.Data.List.Nodup

/-!
# What is found below a folder

In a tree whose folders name each of their entries once, each file below a root is found once, and
the paths that are found are different paths: the names on the way can be read off the path.  Paths
that are found below a root that is a text, in a tree whose names are texts, are texts again.

* `Node.Named` and `Entries.Named` say that all names of a tree have a property and that no folder
  has one name twice.
* `Node.Named.nodup_files` : the places of the files below a node are different.
* `Path.joinAll_injOn` : two ways below a root that are the same path are the same way.
* **`Disk.nodup_discover`** : so nothing is found twice.
* **`Disk.exists_text_of_mem_discover`** : what is found is a text that begins with the root and
  ends as asked.
-/

set_option autoImplicit false

namespace Fonoteca

open Text

/-! ## Names -/

/-- What a name in a folder can be: it is not empty and has no slash in it. -/
structure Path.IsName (name : Bytes) : Prop where
  ne_nil : name ≠ []
  noSlash : Path.slash ∉ name

/-- A name that is a text. -/
structure Path.IsTextName (name : Bytes) : Prop extends Path.IsName name where
  isText : ∃ s, Utf8.encode s = name

section

variable {α : Type} {P : Bytes → Prop}

mutual

/-- All names below a node have a property, and no folder has one name twice. -/
def Node.Named (P : Bytes → Prop) : Node α → Prop
  | .file _ => True
  | .link _ => True
  | .folder es => es.Named P

@[inherit_doc Node.Named]
def Entries.Named (P : Bytes → Prop) : Entries α → Prop
  | .nil => True
  | .cons name node rest => P name ∧ rest.find? name = none ∧ node.Named P ∧ rest.Named P

end

mutual

/-- A property that follows from one that all names have is one that all names have. -/
theorem Node.Named.imp {Q : Bytes → Prop} (hPQ : ∀ name, P name → Q name) {n : Node α}
    (h : n.Named P) : n.Named Q := by
  match n, h with
  | .file _, _ => trivial
  | .link _, _ => trivial
  | .folder _, h => exact Entries.Named.imp hPQ h

theorem Entries.Named.imp {Q : Bytes → Prop} (hPQ : ∀ name, P name → Q name) {es : Entries α}
    (h : es.Named P) : es.Named Q := by
  match es, h with
  | .nil, _ => trivial
  | .cons _ _ _, ⟨hname, hnew, hnode, hrest⟩ =>
    exact ⟨hPQ _ hname, hnew, Node.Named.imp hPQ hnode, Entries.Named.imp hPQ hrest⟩

end

/-- What a name in such a folder stands for is such a node. -/
theorem Entries.Named.find? {es : Entries α} (h : es.Named P) {name : Bytes} {n : Node α}
    (hn : es.find? name = some n) : n.Named P := by
  match es, h, hn with
  | .cons other node rest, ⟨_, _, hnode, hrest⟩, hn =>
    rw [Entries.find?] at hn
    split at hn
    · exact Option.some.inj hn ▸ hnode
    · exact hrest.find? hn

theorem Entries.Named.lookup {es : Entries α} (h : es.Named P) {place : List Bytes} {n : Node α}
    (hn : es.lookup place = some n) : n.Named P := by
  induction place generalizing es with
  | nil =>
    obtain rfl := Option.some.inj hn
    exact h
  | cons name place ih =>
    rw [Entries.lookup] at hn
    split at hn
    · cases hn
    · next hsub => exact ih (h.find? hsub) hn
    · next node _ hnode =>
      split at hn
      · exact Option.some.inj hn ▸ h.find? hnode
      · cases hn

theorem Disk.named_of_node {d : Disk α} (h : d.root.Named P) {follow : Bool} {p : Path}
    {n : Node α} (hn : d.node follow p = .ok n) : n.Named P := by
  rw [Disk.node] at hn
  cases hplace : d.locate follow p with
  | error e =>
    rw [hplace] at hn
    cases hn
  | ok place =>
    rw [hplace] at hn
    dsimp only [bind, Except.bind] at hn
    split at hn
    · next hlookup =>
      cases hn
      exact h.lookup hlookup
    · cases hn

/-! ## Ways to the files -/

theorem mem_inNameOrder {found : List (Bytes × List (List Bytes))} {names : List Bytes} :
    names ∈ inNameOrder found ↔ ∃ e ∈ found, ∃ way ∈ e.2, e.1 :: way = names := by
  simp [inNameOrder, List.mem_flatMap, List.mem_map]

/-- Ways through different names are different. -/
theorem nodup_inNameOrder {found : List (Bytes × List (List Bytes))}
    (hnames : (found.map (·.1)).Nodup) (hways : ∀ e ∈ found, e.2.Nodup) :
    (inNameOrder found).Nodup := by
  have hperm := List.mergeSort_perm found fun a b => decide (a.1 ≤ b.1)
  rw [inNameOrder, (hperm.flatMap_right _).nodup_iff, List.nodup_flatMap]
  refine ⟨fun e he => (hways e he).map (List.cons_injective), ?_⟩
  rw [List.Nodup, List.pairwise_map] at hnames
  refine hnames.imp fun {e e'} hne => List.disjoint_left.2 ?_
  intro names hmem hmem'
  obtain ⟨way, -, rfl⟩ := List.mem_map.1 hmem
  obtain ⟨way', -, hway'⟩ := List.mem_map.1 hmem'
  exact hne (List.cons.inj hway').1.symm

/-- The names under which files are looked for in a folder are those of its entries. -/
theorem Entries.mem_files_fst {es : Entries α} {name : Bytes}
    (h : name ∈ es.files.map (·.1)) : es.find? name ≠ none := by
  match es with
  | .nil => simp [Entries.files] at h
  | .cons other node rest =>
    rw [Entries.files, List.map_cons, List.mem_cons] at h
    rw [Entries.find?]
    split
    · simp
    · next hne => exact rest.mem_files_fst (h.resolve_left fun heq => hne heq.symm)

mutual

/-- **The places of the files** below a node are different. -/
theorem Node.Named.nodup_files {n : Node α} (h : n.Named P) : n.files.Nodup := by
  match n, h with
  | .file _, _ => exact List.nodup_singleton []
  | .link _, _ => exact List.nodup_nil
  | .folder es, h =>
    rw [Node.files]
    exact nodup_inNameOrder (Entries.Named.nodup_files_fst h) (Entries.Named.nodup_files h)

theorem Entries.Named.nodup_files {es : Entries α} (h : es.Named P) :
    ∀ e ∈ es.files, e.2.Nodup := by
  match es, h with
  | .nil, _ => simp [Entries.files]
  | .cons name node rest, ⟨_, _, hnode, hrest⟩ =>
    rw [Entries.files]
    intro e he
    rcases List.mem_cons.1 he with rfl | he
    · exact Node.Named.nodup_files hnode
    · exact Entries.Named.nodup_files hrest e he

theorem Entries.Named.nodup_files_fst {es : Entries α} (h : es.Named P) :
    (es.files.map (·.1)).Nodup := by
  match es, h with
  | .nil, _ => exact List.nodup_nil
  | .cons name node rest, ⟨_, hnew, _, hrest⟩ =>
    rw [Entries.files, List.map_cons, List.nodup_cons]
    exact ⟨fun hmem => Entries.mem_files_fst hmem hnew, Entries.Named.nodup_files_fst hrest⟩

end

mutual

/-- The names on the way to a file have the property that all names have. -/
theorem Node.Named.of_mem_files {n : Node α} (h : n.Named P) {names : List Bytes}
    (hmem : names ∈ n.files) : ∀ name ∈ names, P name := by
  match n, h with
  | .file _, _ => simp [Node.files] at hmem; simp [hmem]
  | .link _, _ => simp [Node.files] at hmem
  | .folder es, h =>
    rw [Node.files, mem_inNameOrder] at hmem
    obtain ⟨e, he, way, hway, rfl⟩ := hmem
    exact Entries.Named.of_mem_files h he hway

theorem Entries.Named.of_mem_files {es : Entries α} (h : es.Named P)
    {e : Bytes × List (List Bytes)} (he : e ∈ es.files) {way : List Bytes} (hway : way ∈ e.2) :
    ∀ name ∈ e.1 :: way, P name := by
  match es, h with
  | .nil, _ => simp [Entries.files] at he
  | .cons name node rest, ⟨hname, _, hnode, hrest⟩ =>
    rw [Entries.files] at he
    rcases List.mem_cons.1 he with rfl | he
    · exact List.forall_mem_cons.2 ⟨hname, Node.Named.of_mem_files hnode hway⟩
    · exact Entries.Named.of_mem_files hrest he hway

end

end

/-! ## Paths below a root -/

namespace Path

/-- The bytes that stand before the first name in all paths below a root. -/
def lead (root : Path) : Bytes :=
  if root.endsInSlash then root.bytes else root.bytes ++ [slash]

theorem segments_of_noSlash {name : Bytes} (h : slash ∉ name) : segments name = [name] := by
  induction name with
  | nil => rfl
  | cons b bs ih =>
    rw [List.mem_cons, not_or] at h
    rw [segments, if_neg (Ne.symm h.1), ih h.2]

theorem segments_append (xs ys : Bytes) :
    segments (xs ++ slash :: ys) = segments xs ++ segments ys := by
  induction xs with
  | nil => simp [segments]
  | cons b xs ih =>
    rw [List.cons_append, segments, segments]
    split
    · rw [ih, List.cons_append]
    · rw [ih]
      cases h : segments xs with
      | nil => exact absurd h (segments_ne_nil xs)
      | cons segment rest => rfl

/-- A path below a root, after the names that are behind its first name. -/
theorem segments_names {name : Bytes} {names : List Bytes} (h : ∀ n ∈ name :: names, slash ∉ n) :
    segments (name ++ names.flatMap (slash :: ·)) = name :: names := by
  induction names generalizing name with
  | nil => rw [List.flatMap_nil, List.append_nil, segments_of_noSlash (h name (.head _))]
  | cons next names ih =>
    rw [List.flatMap_cons, List.cons_append, segments_append,
      segments_of_noSlash (h name (.head _)), List.singleton_append,
      ih fun n hn => h n (.tail _ hn)]

/-- A path does not end in a slash if it ends in a name. -/
theorem IsName.endsInSlash_append {name : Bytes} (h : IsName name) (bs : Bytes) :
    endsInSlash ⟨bs ++ name⟩ = false := by
  obtain ⟨front, b, rfl⟩ := (List.eq_nil_or_concat' name).resolve_left h.ne_nil
  have hb : b ≠ slash := fun heq => h.noSlash (by simp [heq])
  simp [endsInSlash, ← List.append_assoc, hb]

/-- Going down from a path that does not end in a slash. -/
theorem joinAll_of_noSlash {p : Path} (hne : p.bytes ≠ []) (hend : p.endsInSlash = false)
    {names : List Bytes} (hnames : ∀ n ∈ names, IsName n) :
    p.joinAll names = ⟨p.bytes ++ names.flatMap (slash :: ·)⟩ := by
  induction names generalizing p with
  | nil => rw [List.flatMap_nil, List.append_nil]; rfl
  | cons name names ih =>
    have hname := hnames name (.head _)
    have hhead : name.head? ≠ some slash := fun h => hname.noSlash (List.mem_of_head? h)
    have hjoin : p.join name = ⟨p.bytes ++ slash :: name⟩ := by
      rw [endsInSlash] at hend
      rw [join, if_neg (by simp [hhead, hne]), if_neg (by simp [hend])]
    have hlast : (p.join name).endsInSlash = false := by
      rw [hjoin, List.append_cons]
      exact hname.endsInSlash_append _
    change (p.join name).joinAll names = _
    rw [ih (by rw [hjoin]; simp) hlast fun n hn => hnames n (.tail _ hn), hjoin, List.flatMap_cons]
    simp

/-- **Going down from a root** writes the names behind its lead, with a slash between them. -/
theorem joinAll_cons {root : Path} (hne : root.bytes ≠ []) {name : Bytes} {names : List Bytes}
    (hnames : ∀ n ∈ name :: names, IsName n) :
    root.joinAll (name :: names) = ⟨root.lead ++ (name ++ names.flatMap (slash :: ·))⟩ := by
  cases hend : root.endsInSlash with
  | false =>
    rw [joinAll_of_noSlash hne hend hnames, lead, hend, List.flatMap_cons]
    simp
  | true =>
    have hname := hnames name (.head _)
    have hhead : name.head? ≠ some slash := fun h => hname.noSlash (List.mem_of_head? h)
    have hjoin : root.join name = ⟨root.bytes ++ name⟩ := by
      rw [endsInSlash] at hend
      rw [join, if_neg (by simp [hhead, hne]), if_pos hend]
    have hlast : (root.join name).endsInSlash = false := by
      rw [hjoin]
      exact hname.endsInSlash_append _
    change (root.join name).joinAll names = _
    rw [joinAll_of_noSlash (by rw [hjoin]; simp [hne]) hlast fun n hn => hnames n (.tail _ hn),
      hjoin, lead, hend]
    simp

/-- **The names on the way can be read off** a path below a root. -/
theorem joinAll_injOn {root : Path} (hne : root.bytes ≠ []) {names names' : List Bytes}
    (hnames : ∀ n ∈ names, IsName n) (hnames' : ∀ n ∈ names', IsName n)
    (h : root.joinAll names = root.joinAll names') : names = names' := by
  have hlonger : ∀ {name names}, (∀ n ∈ name :: names, IsName n) →
      root.joinAll (name :: names) ≠ root := by
    intro name names hall heq
    rw [joinAll_cons hne hall] at heq
    have hlength := congrArg (fun p => p.bytes.length) heq
    have hpos := List.length_pos_iff.2 (hall name (.head _)).ne_nil
    have hlead : root.bytes.length ≤ root.lead.length := by
      rw [lead]
      split <;> simp
    simp only [List.length_append] at hlength
    omega
  match names, names' with
  | [], [] => rfl
  | [], name :: names' => exact absurd h.symm (hlonger hnames')
  | name :: names, [] => exact absurd h (hlonger hnames)
  | name :: names, name' :: names' =>
    rw [joinAll_cons hne hnames, joinAll_cons hne hnames', Path.mk.injEq,
      List.append_cancel_left_eq] at h
    rw [← segments_names fun n hn => (hnames n hn).noSlash, h,
      segments_names fun n hn => (hnames' n hn).noSlash]

/-! ### Texts -/

theorem ofString_append (s t : String) :
    ofString (s ++ t) = ⟨Utf8.encode s ++ Utf8.encode t⟩ := by
  rw [ofString, Utf8.encode_append]

/-- A path below a text is this text with something behind it, if the names on the way are texts. -/
theorem exists_joinAll_eq_ofString (root : String) (hne : root ≠ "") {names : List Bytes}
    (hnames : ∀ n ∈ names, IsTextName n) :
    ∃ rest, (ofString root).joinAll names = ofString (root ++ rest) := by
  induction names generalizing root with
  | nil => exact ⟨"", by rw [String.append_empty]; rfl⟩
  | cons name names ih =>
    have hname := hnames name (.head _)
    obtain ⟨s, rfl⟩ := hname.isText
    have hhead : (Utf8.encode s).head? ≠ some slash :=
      fun h => hname.noSlash (List.mem_of_head? h)
    have hbytes : (ofString root).bytes ≠ [] := fun h => hne (Utf8.encode_injective h)
    obtain ⟨between, hjoin⟩ : ∃ between,
        (ofString root).join (Utf8.encode s) = ofString (root ++ between) := by
      rw [join, if_neg (by simp [hhead, hbytes])]
      split
      · exact ⟨s, (ofString_append root s).symm⟩
      · refine ⟨"/" ++ s, ?_⟩
        rw [ofString_append, Utf8.encode_append]
        rfl
    obtain ⟨rest, hrest⟩ := ih (root ++ between) (by simp [hne])
      fun n hn => hnames n (.tail _ hn)
    refine ⟨between ++ rest, ?_⟩
    change ((ofString root).join (Utf8.encode s)).joinAll names = _
    rw [hjoin, hrest, String.append_assoc]

/-- A path below a root ends in the last name on the way. -/
theorem isSuffix_joinAll (root : Path) {names : List Bytes} {name : Bytes}
    (h : names.getLast? = some name) : name <:+ (root.joinAll names).bytes := by
  obtain ⟨before, rfl⟩ := List.getLast?_eq_some_iff.1 h
  rw [joinAll, List.foldl_append, List.foldl_cons, List.foldl_nil, join]
  split
  · exact List.suffix_rfl
  split
  · exact List.suffix_append _ _
  · exact ⟨_, (List.append_cons _ _ _).symm⟩

theorem trimBody_nil : trimBody [] = [] := by
  rw [trimBody]
  rfl

/-- A path ends in its last name, unless it ends in a slash or a dot. -/
theorem isSuffix_of_fileName? {p : Path} {name : Bytes} (h : p.fileName? = some name) :
    name <:+ p.bytes ∨ p.bytes.getLast? = some slash ∨ p.bytes.getLast? = some dot := by
  have hlast : ∃ before, p.lastName? = some (before, name) := by
    rw [fileName?] at h
    split at h
    · next before last heq =>
      split at h
      · cases h
      · cases h
        exact ⟨before, heq⟩
    · cases h
  obtain ⟨before, hlast⟩ := hlast
  rw [lastName?] at hlast
  split at hlast
  · cases hlast
  next b rest htrim =>
  have hname : name = ((b :: rest).takeWhile (· != slash)).reverse :=
    ((Prod.mk.inj (Option.some.inj hlast)).2).symm
  have hbody : p.body <:+ p.bytes := List.drop_suffix _ _
  cases hrev : p.body.reverse with
  | nil =>
    rw [hrev, trimBody_nil] at htrim
    cases htrim
  | cons c cs =>
    have hend : p.bytes.getLast? = some c := by
      obtain ⟨more, hmore⟩ := hbody
      rw [← hmore, ← List.reverse_reverse p.body, hrev, List.reverse_cons, ← List.append_assoc,
        List.getLast?_concat]
    rw [hrev, trimBody] at htrim
    split at htrim
    · next hsilent =>
      rw [List.takeWhile_cons] at hsilent
      refine .inr ?_
      rcases hsilent with hsilent | hsilent
      · split at hsilent
        · cases hsilent
        · next hc => exact .inl (by rw [hend, show c = slash by simpa using hc])
      · split at hsilent
        · exact .inr (by rw [hend, (List.cons.inj hsilent).1])
        · cases hsilent
    · left
      rw [hname, ← htrim, ← hrev]
      refine List.IsSuffix.trans ?_ hbody
      rw [← List.reverse_prefix, List.reverse_reverse]
      exact List.takeWhile_prefix _

end Path

/-! ## What is found -/

namespace Disk

variable {α : Type} {d : Disk α}

/-- The ways to the files below a root are those below some node, if there is any. -/
theorem waysToFiles_cases {P : Bytes → Prop} (h : d.root.Named P) (root : Path) :
    d.waysToFiles root = [] ∨ ∃ n : Node α, n.Named P ∧ d.waysToFiles root = n.files := by
  rw [waysToFiles]
  split
  · split
    · next es hnode => exact .inr ⟨_, named_of_node h hnode, rfl⟩
    · exact .inl rfl
  · next n _ hnode => exact .inr ⟨n, named_of_node h hnode, rfl⟩
  · exact .inl rfl

theorem nodup_waysToFiles {P : Bytes → Prop} (h : d.root.Named P) (root : Path) :
    (d.waysToFiles root).Nodup := by
  rcases waysToFiles_cases h root with hnil | ⟨n, hn, hfiles⟩
  · rw [hnil]
    exact List.nodup_nil
  · rw [hfiles]
    exact hn.nodup_files

/-- The names on these ways have the property that all names have. -/
theorem of_mem_waysToFiles {P : Bytes → Prop} (h : d.root.Named P) {root : Path}
    {way : List Bytes} (hway : way ∈ d.waysToFiles root) : ∀ name ∈ way, P name := by
  rcases waysToFiles_cases h root with hnil | ⟨n, hn, hfiles⟩
  · rw [hnil] at hway
    cases hway
  · rw [hfiles] at hway
    exact hn.of_mem_files hway

/-- What is found are paths below the root, whose last names end as asked.  The ways are different,
and the names on them have the property that all names have. -/
theorem exists_discover_eq {P : Bytes → Prop} (h : d.root.Named P) (root : Path)
    (extension : String) :
    ∃ ways : List (List Bytes), ways.Nodup ∧ (∀ way ∈ ways, ∀ name ∈ way, P name) ∧
      (∀ way ∈ ways, Utf8.encode extension <:+ lastName root way) ∧
      d.discover root extension = ways.map root.joinAll := by
  refine ⟨_, (nodup_waysToFiles h root).filter _,
    fun way hway => of_mem_waysToFiles h (List.mem_of_mem_filter hway), fun way hway => ?_, rfl⟩
  have hkept := (List.mem_filter.1 hway).2
  rw [Bool.and_eq_true] at hkept
  simpa [endsWith] using hkept.2

/-- The empty path leads nowhere. -/
theorem discover_empty (extension : String) : d.discover ⟨[]⟩ extension = [] := by
  have hnode : ∀ follow, d.node follow ⟨[]⟩ = .error .notFound := fun _ => rfl
  rw [discover, waysToFiles, hnode]
  rfl

/-- **Nothing is found twice.** -/
theorem nodup_discover {P : Bytes → Prop} (hP : ∀ name, P name → Path.IsName name)
    (h : d.root.Named P) (root : Path) (extension : String) :
    (d.discover root extension).Nodup := by
  by_cases hne : root.bytes = []
  · obtain rfl : root = ⟨[]⟩ := congrArg Path.mk hne
    rw [discover_empty]
    exact List.nodup_nil
  · obtain ⟨ways, hnodup, hnames, -, hfound⟩ := exists_discover_eq h root extension
    rw [hfound]
    have hways : ∀ way ∈ ways, ∀ name ∈ way, Path.IsName name :=
      fun way hway name hname => hP name (hnames way hway name hname)
    exact hnodup.map_on fun way hway way' hway' heq =>
      Path.joinAll_injOn hne (hways way hway) (hways way' hway') heq

variable {root extension : String} {p : Path}

/-- **What is found is a text** that begins with the root, if the root and all names are texts.  It
ends as the extension does, unless it ends in a slash or a dot, as the name of a root may. -/
theorem exists_text_of_mem_discover (h : d.root.Named Path.IsTextName)
    (hp : p ∈ d.discover (.ofString root) extension) :
    ∃ s, p = .ofString (root ++ s) ∧ root ≠ "" ∧
      ∀ c, extension.toList.getLast? = some c →
        ∃ b, (b = c ∨ b = '/' ∨ b = '.') ∧ (root ++ s).toList.getLast? = some b := by
  have hne : root ≠ "" := by
    rintro rfl
    rw [show Path.ofString "" = ⟨[]⟩ from rfl, discover_empty] at hp
    cases hp
  obtain ⟨ways, -, hnames, hends, hfound⟩ := exists_discover_eq h (.ofString root) extension
  rw [hfound] at hp
  obtain ⟨way, hway, rfl⟩ := List.mem_map.1 hp
  obtain ⟨s, hs⟩ := Path.exists_joinAll_eq_ofString root hne (hnames way hway)
  refine ⟨s, hs, hne, fun c hc => ?_⟩
  have hend : ∀ (t : String) c, Utf8.encode t <:+ ((Path.ofString root).joinAll way).bytes →
      t.toList.getLast? = some c → (root ++ s).toList.getLast? = some c := by
    intro t c ht
    rw [hs] at ht
    exact Utf8.getLast?_of_encode_isSuffix ht
  have hextension := hends way hway
  rw [lastName] at hextension
  cases hlast : way.getLast? with
  | some name =>
    rw [hlast] at hextension
    exact ⟨c, .inl rfl, hend extension c (hextension.trans (Path.isSuffix_joinAll _ hlast)) hc⟩
  | none =>
    obtain rfl := List.getLast?_eq_none_iff.1 hlast
    cases hname : (Path.ofString root).fileName? with
    | none =>
      rw [hname] at hextension
      exact ⟨c, .inl rfl, hend extension c hextension hc⟩
    | some name =>
      rw [hname] at hextension
      rcases Path.isSuffix_of_fileName? hname with hsuffix | hslash | hdot
      · exact ⟨c, .inl rfl, hend extension c (hextension.trans hsuffix) hc⟩
      · obtain ⟨front, hfront⟩ := List.getLast?_eq_some_iff.1 hslash
        exact ⟨'/', .inr (.inl rfl), hend "/" '/' ⟨front, hfront.symm⟩ rfl⟩
      · obtain ⟨front, hfront⟩ := List.getLast?_eq_some_iff.1 hdot
        exact ⟨'.', .inr (.inr rfl), hend "." '.' ⟨front, hfront.symm⟩ rfl⟩

end Disk

end Fonoteca
