import Fonoteca.Proofs.Disk.Discovery
import Fonoteca.Proofs.Disk.Reaching

/-!
# The files below a root

What a listing of the files goes through is the tree from a place downwards.  Here this place is
said, and what lies below it, without a listing.

* `Node.lookup` says what stands at a place below a node, and `Entries.lookup_append` that a place
  below a place is one place.
* **`Node.Named.mem_files_iff`** : the listing has all places of files below a node, and no others.
* **`Node.Named.pairwise_files`** : it has them in ascending order, by the bytes of the first name
  in which they differ.
* `Disk.IsBelow` says that a file stands at or below a root, `Disk.IsBelow.place_eq_iff` that the
  names that lead there from the root stand for its place.
* **`Disk.mem_discover_iff`** : what is found are the files at or below the root in folders that can
  be opened, if their names end as asked.
-/

set_option autoImplicit false

namespace Fonoteca

variable {α : Type} {P : Bytes → Prop}

/-! ## Places below a node -/

/-- What stands at a place at or below a node. -/
def Node.lookup : Node α → List Bytes → Option (Node α)
  | .folder es, place => es.lookup place
  | n, place => if place = [] then some n else none

theorem Node.lookup_nil (n : Node α) : n.lookup [] = some n := by
  cases n <;> rfl

namespace Entries

theorem lookup_cons (es : Entries α) (name : Bytes) (place : List Bytes) :
    es.lookup (name :: place) = (es.find? name).bind (·.lookup place) := by
  rw [lookup]
  rcases es.find? name with _ | _ | _ | _ <;> rfl

/-- A place below a place is one place. -/
theorem lookup_append (es : Entries α) (start place : List Bytes) :
    es.lookup (start ++ place) = (es.lookup start).bind (·.lookup place) := by
  induction start generalizing es with
  | nil => rfl
  | cons name start ih =>
    rw [List.cons_append, lookup_cons, lookup_cons]
    rcases es.find? name with _ | _ | _ | sub
    · rfl
    · cases start <;> rfl
    · cases start <;> rfl
    · exact ih sub

theorem lookup_concat_of_folder {es sub : Entries α} {place : List Bytes}
    (h : es.lookup place = some (.folder sub)) (name : Bytes) :
    es.lookup (place ++ [name]) = sub.find? name := by
  rw [lookup_append, h, Option.bind_some, Node.lookup, lookup_cons]
  cases sub.find? name with
  | none => rfl
  | some n => exact n.lookup_nil

end Entries

/-! ## What a listing goes through -/

/-- The listing of a folder goes through what its names stand for. -/
theorem Entries.Named.mem_files_iff {es : Entries α} (h : es.Named P)
    {e : Bytes × List (List Bytes)} :
    e ∈ es.files ↔ ∃ n, es.find? e.1 = some n ∧ e.2 = n.files := by
  cases es with
  | nil => simp [Entries.files, Entries.find?]
  | cons name node rest =>
    obtain ⟨-, hnew, -, hrest⟩ := h
    rw [Entries.files, List.mem_cons, hrest.mem_files_iff, Entries.find?]
    split
    · next heq =>
      rw [← heq, hnew]
      constructor
      · rintro (rfl | ⟨n, hn, -⟩)
        · exact ⟨node, rfl, rfl⟩
        · cases hn
      · rintro ⟨n, hn, hfiles⟩
        obtain rfl := Option.some.inj hn
        exact .inl (Prod.ext heq.symm hfiles)
    · next hne =>
      refine or_iff_right ?_
      rintro rfl
      exact hne rfl

namespace Node.Named

/-- **The listing has the places of the files** below a node, and no others. -/
theorem mem_files_iff {n : Node α} (h : n.Named P) {names : List Bytes} :
    names ∈ n.files ↔ ∃ c, n.lookup names = some (.file c) := by
  induction names generalizing n with
  | nil =>
    rw [Node.lookup_nil]
    cases n with
    | file c => simp [Node.files]
    | link target => simp [Node.files]
    | folder es => simp [Node.files, mem_inNameOrder]
  | cons name way ih =>
    cases n with
    | file c => simp [Node.files, Node.lookup]
    | link target => simp [Node.files, Node.lookup]
    | folder es =>
      have hes : es.Named P := h
      rw [Node.files, mem_inNameOrder, Node.lookup, Entries.lookup_cons]
      constructor
      · rintro ⟨e, he, way', hway', heq⟩
        obtain ⟨rfl, rfl⟩ := List.cons.inj heq
        obtain ⟨n, hn, hfiles⟩ := hes.mem_files_iff.1 he
        rw [hfiles] at hway'
        rw [hn]
        exact (ih (hes.find? hn)).1 hway'
      · rintro ⟨c, hc⟩
        obtain ⟨n, hn, hlookup⟩ := Option.bind_eq_some_iff.1 hc
        exact ⟨(name, n.files), hes.mem_files_iff.2 ⟨n, hn, rfl⟩, way,
          (ih (hes.find? hn)).2 ⟨c, hlookup⟩, rfl⟩

end Node.Named

/-! ## The order of a listing -/

/-- Of different names the one that is not greater is less. -/
theorem lt_of_le_of_ne_names {a b : Bytes} (hle : a ≤ b) (hne : a ≠ b) : a < b := by
  by_contra hnot
  exact hne (List.le_antisymm hle (List.not_lt.1 hnot))

/-- Names that are sorted come in strictly ascending order, if none is there twice. -/
theorem pairwise_mergeSort_names {β : Type} {found : List (Bytes × β)}
    (hnames : (found.map (·.1)).Nodup) :
    (found.mergeSort fun a b => a.1 ≤ b.1).Pairwise fun a b => a.1 < b.1 := by
  have hle : (found.mergeSort fun a b => a.1 ≤ b.1).Pairwise fun a b => decide (a.1 ≤ b.1) :=
    List.pairwise_mergeSort
      (fun a b c hab hbc => by simpa using List.le_trans (by simpa using hab) (by simpa using hbc))
      (fun a b => by simpa using List.le_total a.1 b.1) found
  have hperm := List.mergeSort_perm found fun a b => decide (a.1 ≤ b.1)
  have hne := (hperm.map (·.1)).nodup_iff.2 hnames
  rw [List.Nodup, List.pairwise_map] at hne
  exact (hle.and hne).imp fun ⟨hle, hne⟩ => lt_of_le_of_ne_names (by simpa using hle) hne

/-- Names in the order of their bytes, each with ways in order, make up ways in order. -/
theorem pairwise_inNameOrder {found : List (Bytes × List (List Bytes))}
    (hnames : (found.map (·.1)).Nodup) (hways : ∀ e ∈ found, e.2.Pairwise (· < ·)) :
    (inNameOrder found).Pairwise (· < ·) := by
  have hperm := List.mergeSort_perm found fun a b => decide (a.1 ≤ b.1)
  rw [inNameOrder, List.flatMap_def, List.pairwise_flatten]
  constructor
  · intro ways hmem
    obtain ⟨e, he, rfl⟩ := List.mem_map.1 hmem
    rw [List.pairwise_map]
    exact (hways e (hperm.mem_iff.1 he)).imp fun hlt => List.cons_lt_cons_iff.2 (.inr ⟨rfl, hlt⟩)
  · rw [List.pairwise_map]
    refine (pairwise_mergeSort_names hnames).imp fun hlt x hx y hy => ?_
    obtain ⟨way, -, rfl⟩ := List.mem_map.1 hx
    obtain ⟨way', -, rfl⟩ := List.mem_map.1 hy
    exact List.cons_lt_cons_iff.2 (.inl hlt)

mutual

/-- **The listing is in ascending order.** -/
theorem Node.Named.pairwise_files {n : Node α} (h : n.Named P) : n.files.Pairwise (· < ·) := by
  match n, h with
  | .file _, _ => exact List.pairwise_singleton _ _
  | .link _, _ => exact List.Pairwise.nil
  | .folder es, h =>
    rw [Node.files]
    exact pairwise_inNameOrder (Entries.Named.nodup_files_fst h) (Entries.Named.pairwise_files h)

theorem Entries.Named.pairwise_files {es : Entries α} (h : es.Named P) :
    ∀ e ∈ es.files, e.2.Pairwise (· < ·) := by
  match es, h with
  | .nil, _ => simp [Entries.files]
  | .cons name node rest, ⟨_, _, hnode, hrest⟩ =>
    rw [Entries.files]
    intro e he
    rcases List.mem_cons.1 he with rfl | he
    · exact Node.Named.pairwise_files hnode
    · exact Entries.Named.pairwise_files hrest e he

end

/-! ## Following links or not -/

namespace Disk

variable {root : Entries α} {links : Nat} {here steps place : List Bytes}

/-- A way that does not end at a link is the same if a link at its end is followed. -/
theorem walk_true_of_false (h : walk root false links here steps = .ok place)
    (hplace : ∀ target, root.lookup place ≠ some (.link target)) :
    walk root true links here steps = .ok place := by
  fun_induction walk root false links here steps with
  | case1 => rwa [walk_nil]
  | case2 _ _ _ ih => rw [walk_dot, ih h]
  | case3 _ _ _ _ ih => rw [walk_dots, ih h]
  | case5 _ _ _ _ hdot hdots hfits _ sub hsub ih =>
    rw [walk_folder ⟨hdot, hdots, hfits⟩ (Entries.standing?_eq_folder_iff.2 ⟨sub, hsub⟩), ih h]
  | case6 _ _ _ _ _ _ _ _ target hlink =>
    obtain rfl := Except.ok.inj h
    exact absurd hlink (hplace target)
  | case8 _ _ _ hdot hdots hfits _ target hlink _ _ ih =>
    rw [walk_link ⟨hdot, hdots, hfits⟩ (Entries.standing?_eq_link_iff.2 hlink) (.inr rfl)]
    exact ih h
  | case9 _ _ _ hdot hdots hfits _ c hfile =>
    exact (walk_last hdot hdots hfits (Entries.way?_of_file hfile) _ _).trans h
  | case11 _ _ _ hdot hdots hfits _ hnone =>
    exact (walk_last hdot hdots hfits (Entries.way?_eq_none_iff.2 (.inl hnone)) _ _).trans h
  | case4 | case7 | case10 | case12 => cases h

/-- A way along which a link at the end is followed ends there, or at that link. -/
theorem exists_walk_false_of_true (h : walk root true links here steps = .ok place) :
    ∃ place', walk root false links here steps = .ok place' ∧
      (place' = place ∨ ∃ target, root.lookup place' = some (.link target)) := by
  fun_induction walk root true links here steps with
  | case1 => exact ⟨place, by rw [walk_nil, h], .inl rfl⟩
  | case2 _ _ _ ih => rw [walk_dot]; exact ih h
  | case3 _ _ _ _ ih => rw [walk_dots]; exact ih h
  | case5 _ _ _ _ hdot hdots hfits _ sub hsub ih =>
    rw [walk_folder ⟨hdot, hdots, hfits⟩ (Entries.standing?_eq_folder_iff.2 ⟨sub, hsub⟩)]
    exact ih h
  | case8 here step rest hdot hdots hfits _ target hlink _ _ ih =>
    have hstanding := Entries.standing?_eq_link_iff.2 hlink
    by_cases hrest : rest = []
    · -- the link is at the end
      subst hrest
      have hend (n : Nat) : walk root false n here [step] = .ok (here ++ [step]) :=
        walk_last_step ⟨hdot, hdots, hfits⟩ (absurd · Bool.false_ne_true)
      exact ⟨_, hend _, .inr ⟨target, hlink⟩⟩
    · rw [walk_link ⟨hdot, hdots, hfits⟩ hstanding (.inl hrest)]
      exact ih h
  | case9 _ _ _ hdot hdots hfits _ c hfile =>
    have hend := walk_last hdot hdots hfits (Entries.way?_of_file hfile) false
    exact ⟨place, (hend _).trans h, .inl rfl⟩
  | case11 _ _ _ hdot hdots hfits _ hnone =>
    have hend := walk_last hdot hdots hfits (Entries.way?_eq_none_iff.2 (.inl hnone)) false
    exact ⟨place, (hend _).trans h, .inl rfl⟩
  | case6 _ _ _ _ _ _ _ _ _ _ hlast => cases hlast.2
  | case4 | case7 | case10 | case12 => cases h

variable {d : Disk α} {p : Path}

theorem locate_true_of_false (h : d.locate false p = .ok place)
    (hplace : ∀ target, d.root.lookup place ≠ some (.link target)) :
    d.locate true p = .ok place := by
  have husable := isUsable_of_locate h
  rw [husable.locate] at h ⊢
  exact walk_true_of_false h hplace

theorem exists_locate_false_of_true (h : d.locate true p = .ok place) :
    ∃ place', d.locate false p = .ok place' ∧
      (place' = place ∨ ∃ target, d.root.lookup place' = some (.link target)) := by
  have husable := isUsable_of_locate h
  rw [husable.locate] at h ⊢
  exact exists_walk_false_of_true h

end Disk

/-! ## Files at or below a root -/

namespace Disk

variable {d : Disk α} {root : Path} {names names' place place' : List Bytes}

/-- A file stands at or below a root, at a place to which names lead from the root. -/
inductive IsBelow (d : Disk α) (root : Path) : List Bytes → List Bytes → Prop
  /-- The root names a file, and no link to one. -/
  | self {place : List Bytes} {c : α} (h : d.locate false root = .ok place)
    (hfile : d.root.standing? place = some (.file c)) : IsBelow d root [] place
  /-- The root names a folder, or a link to one, and the file stands below this folder. -/
  | below {start names : List Bytes} {c : α} (h : d.locate true root = .ok start) (hne : names ≠ [])
    (hfile : d.root.standing? (start ++ names) = some (.file c)) :
    IsBelow d root names (start ++ names)

/-- What names lead below is a folder. -/
theorem exists_folder_of_below {es : Entries α} {start : List Bytes} {c : α} (hne : names ≠ [])
    (hfile : es.standing? (start ++ names) = some (.file c)) :
    ∃ sub, es.lookup start = some (.folder sub) ∧ sub.lookup names = some (.file c) := by
  have hfolder : es.standing? start = some .folder :=
    Entries.standing?_of_below (q := start ++ names) (by simp [hfile]) (List.prefix_append _ _)
      (by simpa using hne)
  obtain ⟨sub, hsub⟩ := Entries.standing?_eq_folder_iff.1 hfolder
  refine ⟨sub, hsub, ?_⟩
  rwa [Entries.standing?_eq_file_iff, Entries.lookup_append, hsub] at hfile

/-- A root names a file or a folder, not both. -/
theorem not_self_and_below {start : List Bytes} {c c' : α} (h : d.locate false root = .ok place)
    (hfile : d.root.standing? place = some (.file c)) (h' : d.locate true root = .ok start)
    (hne : names ≠ []) (hfile' : d.root.standing? (start ++ names) = some (.file c')) : False := by
  have hlookup := Entries.standing?_eq_file_iff.1 hfile
  have hsame := locate_true_of_false h (by simp [hlookup])
  obtain rfl := Except.ok.inj (h'.symm.trans hsame)
  obtain ⟨sub, hsub, -⟩ := exists_folder_of_below hne hfile'
  rw [hlookup] at hsub
  cases hsub

/-- Two files at or below one root are the root itself, or stand below one folder. -/
theorem IsBelow.self_or_below (h : d.IsBelow root names place) (h' : d.IsBelow root names' place') :
    (names = [] ∧ names' = [] ∧ place = place') ∨
      ∃ start, names ≠ [] ∧ names' ≠ [] ∧ place = start ++ names ∧ place' = start ++ names' := by
  cases h with
  | self hplace hfile =>
    cases h' with
    | self hplace' _ => exact .inl ⟨rfl, rfl, Except.ok.inj (hplace.symm.trans hplace')⟩
    | below hstart hne hfile' => exact (not_self_and_below hplace hfile hstart hne hfile').elim
  | below hstart hne hfile =>
    cases h' with
    | self hplace hfile' => exact (not_self_and_below hplace hfile' hstart hne hfile).elim
    | below hstart' hne' _ =>
      obtain rfl := Except.ok.inj (hstart.symm.trans hstart')
      exact .inr ⟨_, hne, hne', rfl, rfl⟩

/-- **Names stand for a place**, and each place for the names that lead there. -/
theorem IsBelow.place_eq_iff (h : d.IsBelow root names place)
    (h' : d.IsBelow root names' place') : place = place' ↔ names = names' := by
  rcases h.self_or_below h' with ⟨rfl, rfl, rfl⟩ | ⟨start, -, -, rfl, rfl⟩
  · exact iff_of_true rfl rfl
  · exact List.append_right_inj start

/-- A node that is no link is found whether a link at the end is followed or not. -/
theorem exists_place_of_node {n : Node α} (h : d.node false root = .ok n)
    (hlink : ∀ target, n ≠ .link target) :
    ∃ place, d.locate false root = .ok place ∧ d.locate true root = .ok place ∧
      d.root.lookup place = some n := by
  obtain ⟨place, hplace, hn⟩ := node_eq_ok_iff.1 h
  refine ⟨place, hplace, locate_true_of_false hplace fun target htarget => ?_, hn⟩
  exact hlink target (Option.some.inj (hn.symm.trans htarget))

/-- What is listed stands at or below the root. -/
theorem exists_isBelow_of_mem {P : Bytes → Prop} (h : d.root.Named P)
    (hmem : names ∈ d.waysToFiles root) : ∃ place, d.IsBelow root names place := by
  have hbelow {start : List Bytes} {es : Entries α} (hstart : d.locate true root = .ok start)
      (hes : d.root.lookup start = some (.folder es)) (hfiles : names ∈ (Node.folder es).files) :
      ∃ place, d.IsBelow root names place := by
    have hnamed : (Node.folder es).Named P := h.lookup hes
    obtain ⟨c, hc⟩ := hnamed.mem_files_iff.1 hfiles
    have hne : names ≠ [] := by
      rintro rfl
      cases hc
    refine ⟨_, .below hstart hne (c := c) ?_⟩
    rw [Entries.standing?_eq_file_iff, Entries.lookup_append, hes, Option.bind_some]
    exact hc
  rw [waysToFiles] at hmem
  split at hmem
  · split at hmem
    · next es hnode =>
      obtain ⟨start, hstart, hes⟩ := node_eq_ok_iff.1 hnode
      exact hbelow hstart hes hmem
    · cases hmem
  · next n hlink hnode =>
    obtain ⟨place, hplace, hstart, hn⟩ := exists_place_of_node hnode fun target htarget =>
      hlink target htarget
    cases n with
    | file c =>
      obtain rfl : names = [] := by simpa [Node.files] using hmem
      exact ⟨place, .self hplace (Entries.standing?_eq_file_iff.2 hn)⟩
    | link target => exact absurd rfl (hlink target)
    | folder es => exact hbelow hstart hn hmem
  · cases hmem

/-- What stands at or below the root is listed. -/
theorem IsBelow.mem_waysToFiles {P : Bytes → Prop} (h : d.root.Named P)
    (hbelow : d.IsBelow root names place) : names ∈ d.waysToFiles root := by
  cases hbelow with
  | @self _ c hplace hfile =>
    have hnode : d.node false root = .ok (.file c) :=
      node_eq_ok_iff.2 ⟨place, hplace, Entries.standing?_eq_file_iff.1 hfile⟩
    rw [waysToFiles, hnode]
    exact .head _
  | @below start _ c hstart hne hfile =>
    obtain ⟨sub, hsub, hnames⟩ := exists_folder_of_below hne hfile
    have hnamed : (Node.folder sub).Named P := h.lookup hsub
    have hmem : names ∈ (Node.folder sub).files := hnamed.mem_files_iff.2 ⟨c, hnames⟩
    have hnode : d.node true root = .ok (.folder sub) := node_eq_ok_iff.2 ⟨start, hstart, hsub⟩
    obtain ⟨place', hplace', rfl | ⟨target, htarget⟩⟩ := exists_locate_false_of_true hstart
    · rw [waysToFiles, node_eq_ok_iff.2 ⟨_, hplace', hsub⟩]
      exact hmem
    · rw [waysToFiles, node_eq_ok_iff.2 ⟨_, hplace', htarget⟩, hnode]
      exact hmem

/-- **What is found** are the files at or below the root in folders that can be opened, if their
names end as asked. -/
theorem mem_discover_iff {P : Bytes → Prop} (h : d.root.Named P) {extension : String} {p : Path} :
    p ∈ d.discover root extension ↔ ∃ names place, d.IsBelow root names place ∧
      root.joinAll names = p ∧ (root.joinAll names.dropLast).bytes.length < pathLengthLimit ∧
      Text.Utf8.encode extension <:+ lastName root names := by
  simp only [discover, List.mem_map, List.mem_filter, Bool.and_eq_true, opens, endsWith,
    decide_eq_true_eq, List.isSuffixOf_iff_suffix]
  constructor
  · rintro ⟨names, ⟨hmem, hopens, hends⟩, hp⟩
    obtain ⟨place, hbelow⟩ := exists_isBelow_of_mem h hmem
    exact ⟨names, place, hbelow, hp, hopens, hends⟩
  · rintro ⟨names, place, hbelow, hp, hopens, hends⟩
    exact ⟨names, ⟨hbelow.mem_waysToFiles h, hopens, hends⟩, hp⟩

end Disk
end Fonoteca
