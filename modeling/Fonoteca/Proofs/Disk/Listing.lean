import Fonoteca.Proofs.Disk.Below
import Fonoteca.Proofs.Path.Joining

/-!
# What a scan finds

A scan lists files by their paths, and a path below a root is the root with the names behind it that
lead to the file.  So what holds of the ways in the tree can be said of paths: which files are
listed, that none is listed twice, and in which order.

* `Disk.IsBelow.getLast?_place` : the last name of a path is that of the file, also where the root
  is the file itself.
* **`Disk.discover_exact`** : a scan finds the files at or below its root whose names end as asked,
  each once and in the order of the components of their paths; only what lies in a folder whose path
  is too long for it to be opened is left out.
* **`Disk.discover_tooDeep`** : there is something to leave out.
-/

set_option autoImplicit false

namespace Fonoteca

open Text

variable {α : Type}

/-! ## Orders -/

/-- Lists that begin alike are in the order of what follows. -/
theorem append_lt_append_left_iff (xs : List Bytes) {ys zs : List Bytes} :
    xs ++ ys < xs ++ zs ↔ ys < zs := by
  induction xs with
  | nil => rfl
  | cons x xs ih =>
    rw [List.cons_append, List.cons_append, List.cons_lt_cons_iff, ih]
    exact ⟨fun h => (h.resolve_left (List.lt_irrefl x)).2, fun h => .inr ⟨rfl, h⟩⟩

namespace Disk

variable {d : Disk α} {root : Path} {names names' place place' : List Bytes}

/-! ## The names of files -/

/-- A path that leads to a file ends in the name of the file, if a link at its end is not
followed. -/
theorem fileName?_of_file (hd : d.IsGrounded) {c : α} (hplace : d.locate false root = .ok place)
    (hfile : d.root.standing? place = some (.file c)) :
    ∃ name, root.fileName? = some name ∧ place.getLast? = some name := by
  obtain ⟨lead, name, links, folder, rfl, hlead, hname, hstep, hwalk⟩ :=
    exists_lead_of_locate hd hplace (by simp [hfile])
  have hend : walk d.root false links folder [name] = .ok (folder ++ [name]) :=
    walk_last_step hstep (absurd · Bool.false_ne_true)
  obtain rfl := Except.ok.inj (hend.symm.trans hwalk)
  exact ⟨name, Path.fileName?_lead hlead hname hstep.ne_dot hstep.ne_dots, List.getLast?_concat⟩

/-- **The last name of a path** below a root is the name of the file. -/
theorem IsBelow.getLast?_place (hd : d.IsGrounded) (h : d.IsBelow root names place) :
    place.getLast? = some (lastName root names) := by
  cases h with
  | self hplace hfile =>
    obtain ⟨name, hname, hlast⟩ := fileName?_of_file hd hplace hfile
    rw [hlast, lastName, hname]
    rfl
  | below hstart hne _ =>
    obtain ⟨before, name, rfl⟩ := (List.eq_nil_or_concat' names).resolve_left hne
    rw [← List.append_assoc, List.getLast?_concat, lastName, List.getLast?_concat]
    rfl

/-! ## What is found -/

/-- The names on the way to what stands below a root are names of entries. -/
theorem IsBelow.names_are {P : Bytes → Prop} (h : d.root.Named P)
    (hbelow : d.IsBelow root names place) : ∀ name ∈ names, P name :=
  of_mem_waysToFiles h (hbelow.mem_waysToFiles h)

/-- Only what can be located has anything below it. -/
theorem IsBelow.root_ne_nil (h : d.IsBelow root names place) : root.bytes ≠ [] := by
  cases h with
  | self hplace _ => exact (isUsable_of_locate hplace).ne_nil
  | below hstart _ _ => exact (isUsable_of_locate hstart).ne_nil

/-- **Different files have different paths** below a root, and a file has one. -/
theorem IsBelow.joinAll_eq_iff (hnames : d.root.Named Path.IsEntry)
    (h : d.IsBelow root names place) (h' : d.IsBelow root names' place') :
    root.joinAll names = root.joinAll names' ↔ place = place' := by
  rw [h.place_eq_iff h']
  refine ⟨fun heq => ?_, congrArg _⟩
  exact Path.joinAll_injOn h.root_ne_nil (fun n hn => (h.names_are hnames n hn).toIsName)
    (fun n hn => (h'.names_are hnames n hn).toIsName) heq

/-- The paths that are found are in the order of their components. -/
theorem pairwise_discover (h : d.root.Named Path.IsEntry) (root : Path) (extension : String) :
    (d.discover root extension).Pairwise fun p q => p.components < q.components := by
  by_cases hne : root.bytes = []
  · obtain rfl : root = ⟨[]⟩ := congrArg Path.mk hne
    rw [discover_empty]
    exact List.Pairwise.nil
  have hways : (d.waysToFiles root).Pairwise (· < ·) := by
    rcases waysToFiles_cases h root with hnil | ⟨n, hn, hfiles⟩
    · rw [hnil]
      exact List.Pairwise.nil
    · rw [hfiles]
      exact hn.pairwise_files
  rw [discover, List.pairwise_map]
  refine List.Pairwise.imp_of_mem (fun {way way'} hway hway' hlt => ?_) (hways.filter _)
  have hcomponents {way : List Bytes} (hway : way ∈ d.waysToFiles root) :=
    Path.components_joinAll hne (of_mem_waysToFiles h hway)
  -- all paths begin with the components of the root, so the ways decide
  rw [hcomponents (List.mem_of_mem_filter hway), hcomponents (List.mem_of_mem_filter hway')]
  exact (append_lt_append_left_iff _).2 hlt

/-- **A scan finds the files at or below its root** whose names end as asked, and nothing else,
unless they lie in a folder whose path is too long for it to be opened.  A link is no file and leads
to none, but a root may be a link to a folder.  No file is found twice, for different files have
different paths, and the paths are in strictly ascending order of their components, which are
compared by their bytes.  A root that is not there has nothing below it. -/
theorem discover_exact (h : d.root.Named Path.IsEntry) (hd : d.IsGrounded) (root : Path)
    (extension : String) :
    (∀ p, p ∈ d.discover root extension ↔ ∃ names place, d.IsBelow root names place ∧
      root.joinAll names = p ∧
      (∃ name, place.getLast? = some name ∧ Utf8.encode extension <:+ name) ∧
      (root.joinAll names.dropLast).bytes.length < pathLengthLimit) ∧
    (∀ names place names' place', d.IsBelow root names place → d.IsBelow root names' place' →
      (root.joinAll names = root.joinAll names' ↔ place = place')) ∧
    (d.discover root extension).Pairwise (fun p q => p.components < q.components) ∧
    (d.discover root extension).Nodup ∧
    (∀ e, d.node false root = .error e → d.discover root extension = []) := by
  refine ⟨fun p => ?_, fun names place names' place' hbelow hbelow' =>
    hbelow.joinAll_eq_iff h hbelow', pairwise_discover h root extension,
    nodup_discover (fun _ => Path.IsEntry.toIsName) h root extension, fun e he => ?_⟩
  · rw [mem_discover_iff h]
    constructor
    · rintro ⟨names, place, hbelow, hp, hopens, hends⟩
      exact ⟨names, place, hbelow, hp, ⟨_, hbelow.getLast?_place hd, hends⟩, hopens⟩
    · rintro ⟨names, place, hbelow, hp, ⟨name, hname, hends⟩, hopens⟩
      obtain rfl := Option.some.inj ((hbelow.getLast?_place hd).symm.trans hname)
      exact ⟨names, place, hbelow, hp, hopens, hends⟩
  · rw [discover, waysToFiles, he]
    rfl

/-! ## A folder, a link and a name that is no text -/

/-- The folder that a step from the top of the tree leads to, with dots behind it or not. -/
theorem locate_top {d : Disk α} (hhome : d.home = []) {p : Path} (hp : IsUsable p)
    {name : Bytes} {n : Nat} (hsteps : p.steps = name :: List.replicate n [Path.dot])
    (hname : IsStep name) (hfolder : d.root.standing? [name] = some .folder) (follow : Bool) :
    d.locate follow p = .ok [name] := by
  have hdots (k : Nat) : walk d.root follow maxLinks [name] (List.replicate k [Path.dot]) =
      .ok [name] := by
    induction k with
    | zero => exact walk_nil
    | succ k ih => rw [List.replicate_succ, walk_dot, ih]
  have hstart : d.start p = [] := by
    rw [start, hhome, ite_self]
  rw [hp.locate, hstart, hsteps, walk_folder hname hfolder]
  exact hdots n

theorem isEntry_of {name : Bytes} (h : name ≠ [] ∧ Path.slash ∉ name ∧ name ≠ [Path.dot] ∧
    name ≠ [Path.dot, Path.dot]) : Path.IsEntry name :=
  ⟨⟨h.1, h.2.1⟩, h.2.2.1, h.2.2.2⟩

/-- A folder `m` with a file, a link and a folder with a file in it, whose names all end alike. -/
def mixed : Disk Unit where
  root := .cons [0x6D] (.folder
    (.cons [0xFF, 0x2E, 0x6D, 0x70, 0x33] (.file ())
    (.cons [0x6C, 0x2E, 0x6D, 0x70, 0x33] (.link ⟨[0x2F, 0x6D]⟩)
    (.cons [0x64, 0x2E, 0x6D, 0x70, 0x33]
      (.folder (.cons [0x61, 0x2E, 0x6D, 0x70, 0x33] (.file ()) .nil)) .nil)))) .nil
  home := []

theorem named_mixed : mixed.root.Named Path.IsEntry := by
  refine ⟨isEntry_of (by decide), rfl, ?_, trivial⟩
  refine ⟨isEntry_of (by decide), by decide, trivial, ?_⟩
  refine ⟨isEntry_of (by decide), by decide, trivial, ?_⟩
  exact ⟨isEntry_of (by decide), rfl, ⟨isEntry_of (by decide), rfl, trivial, trivial⟩, trivial⟩

/-- The two files are found, one of them in the folder whose name ends like theirs, and no path is
found that is less than the one before it. -/
theorem discover_exact_mixed :
    mixed.root.Named Path.IsEntry ∧ mixed.IsGrounded ∧
    (⟨[0x6D, 0x2F, 0xFF, 0x2E, 0x6D, 0x70, 0x33]⟩ : Path) ∈ mixed.discover ⟨[0x6D]⟩ ".mp3" ∧
    (⟨[0x6D, 0x2F, 0x64, 0x2E, 0x6D, 0x70, 0x33, 0x2F, 0x61, 0x2E, 0x6D, 0x70, 0x33]⟩ : Path) ∈
      mixed.discover ⟨[0x6D]⟩ ".mp3" ∧
    (mixed.discover ⟨[0x6D]⟩ ".mp3").Pairwise fun p q => p.components < q.components := by
  obtain ⟨hmem, -, hsorted, -⟩ := discover_exact named_mixed rfl ⟨[0x6D]⟩ ".mp3"
  have hstart : mixed.locate true ⟨[0x6D]⟩ = .ok [[0x6D]] :=
    locate_top (n := 0) rfl ⟨by decide, by decide, by decide⟩ (by decide +kernel)
      ⟨by decide, by decide, by decide⟩ rfl true
  have hfile : mixed.root.standing? ([[0x6D]] ++ [[0xFF, 0x2E, 0x6D, 0x70, 0x33]]) =
      some (.file ()) := rfl
  have hdeeper : mixed.root.standing? ([[0x6D]] ++ [[0x64, 0x2E, 0x6D, 0x70, 0x33],
      [0x61, 0x2E, 0x6D, 0x70, 0x33]]) = some (.file ()) := rfl
  refine ⟨named_mixed, rfl, ?_, ?_, hsorted⟩
  · exact (hmem _).2 ⟨_, _, .below hstart (by decide) hfile, by decide +kernel,
      ⟨_, rfl, by decide +kernel⟩, by decide +kernel⟩
  · exact (hmem _).2 ⟨_, _, .below hstart (by decide) hdeeper, by decide +kernel,
      ⟨_, rfl, by decide +kernel⟩, by decide +kernel⟩

/-! ## Too deep -/

/-- A name of one byte with slashes behind it. -/
def slashed (b : UInt8) (n : Nat) : Path :=
  ⟨b :: List.replicate (n + 1) Path.slash⟩

theorem segments_replicate_slash (n : Nat) :
    Path.segments (List.replicate n Path.slash) = List.replicate (n + 1) [] := by
  induction n with
  | zero => rfl
  | succ n ih => rw [List.replicate_succ, Path.segments, if_pos rfl, ih, ← List.replicate_succ]

theorem length_slashed (b : UInt8) (n : Nat) : (slashed b n).bytes.length = n + 2 := by
  simp [slashed]

theorem endsInSlash_slashed (b : UInt8) (n : Nat) : (slashed b n).endsInSlash = true := by
  simp [slashed, Path.endsInSlash, List.getLast?_cons, List.getLast?_replicate]

/-- The slashes say no more than that the name has to be that of a folder. -/
theorem steps_slashed {b : UInt8} (hb : b ≠ Path.slash) (n : Nat) :
    (slashed b n).steps = [[b], [Path.dot]] := by
  rw [Path.steps, endsInSlash_slashed, if_pos rfl, slashed, Path.segments, if_neg hb,
    segments_replicate_slash, List.replicate_succ]
  simp

theorem isUsable_slashed {b : UInt8} (hb : b ≠ 0) {n : Nat} (hn : n + 2 < pathLengthLimit) :
    IsUsable (slashed b n) where
  noNul := by simp [slashed, Path.slash, Ne.symm hb]
  ne_nil := List.cons_ne_nil _ _
  short := by rwa [length_slashed, Nat.not_le]

/-- A folder `m` with a folder `s` with a file. -/
def nested : Disk Unit where
  root := .cons [0x6D] (.folder (.cons [0x73]
    (.folder (.cons [0x61, 0x2E, 0x6D, 0x70, 0x33] (.file ()) .nil)) .nil)) .nil
  home := []

theorem named_nested : nested.root.Named Path.IsEntry :=
  ⟨isEntry_of (by decide), rfl, ⟨isEntry_of (by decide), rfl,
    ⟨isEntry_of (by decide), rfl, trivial, trivial⟩, trivial⟩, trivial⟩

/-- The folder of the file in `nested` cannot be opened behind as many slashes as a path may have. -/
theorem opens_slashed {n : Nat} (hn : n + 3 = pathLengthLimit) :
    opens (slashed 0x6D n) [[0x73]] = false := by
  have hjoin : (slashed 0x6D n).joinAll [[0x73]] = ⟨(slashed 0x6D n).bytes ++ [0x73]⟩ := by
    have hname : Path.IsName [0x73] := ⟨by decide, by decide⟩
    have hlead : (slashed 0x6D n).lead = (slashed 0x6D n).bytes :=
      if_pos (endsInSlash_slashed 0x6D n)
    rw [← hlead]
    exact Path.join_eq (List.cons_ne_nil _ _) hname
  rw [opens, hjoin, List.length_append, length_slashed, List.length_singleton, hn]
  exact decide_eq_false (Nat.lt_irrefl _)

/-- **Not every file below a root is found**: with as many slashes at its end as a path may have, the
root can be opened, but not the folder in it. -/
theorem discover_tooDeep :
    nested.root.Named Path.IsEntry ∧ nested.IsGrounded ∧
    nested.IsBelow (slashed 0x6D 4093) [[0x73], [0x61, 0x2E, 0x6D, 0x70, 0x33]]
      [[0x6D], [0x73], [0x61, 0x2E, 0x6D, 0x70, 0x33]] ∧
    Utf8.encode ".mp3" <:+ [0x61, 0x2E, 0x6D, 0x70, 0x33] ∧
    nested.discover (slashed 0x6D 4093) ".mp3" = [] := by
  have hstart (follow : Bool) : nested.locate follow (slashed 0x6D 4093) = .ok [[0x6D]] :=
    locate_top (n := 1) rfl (isUsable_slashed (by decide) (by decide))
      (steps_slashed (by decide) 4093) ⟨by decide, by decide, by decide⟩ rfl follow
  have hways : nested.waysToFiles (slashed 0x6D 4093) =
      [[[0x73], [0x61, 0x2E, 0x6D, 0x70, 0x33]]] := by
    rw [waysToFiles, node_eq_ok_iff.2 ⟨_, hstart false, rfl⟩]
    simp [Node.files, Entries.files, inNameOrder]
  refine ⟨named_nested, rfl, .below (hstart true) (by decide) (c := ()) rfl, by decide +kernel, ?_⟩
  rw [discover, hways, List.filter_cons_of_neg]
  · rfl
  · rw [List.dropLast_cons_cons, List.dropLast_singleton, opens_slashed rfl]
    decide

end Disk
end Fonoteca
