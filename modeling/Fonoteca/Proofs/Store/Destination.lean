import Fonoteca.Proofs.Disk.Below
import Fonoteca.Proofs.Store.Address
import Fonoteca.Proofs.Store.Location

/-!
# Which file is opened

A library is asked for by a path, the path goes into an address letter for letter, and what the
address says is opened.  Before that, a file that is missing is made, so the path is followed on a
disk that has changed meanwhile.

* `Disk.Filled` says that of a disk no way has changed, and that nothing is gone.  This is all that
  happens to a disk before the tables are read (`Disk.filled_of_connect`,
  `Disk.filled_createDatabase`).
* `Database.walk_of_filled` : a place that is found then was there to be found before.
* **`Disk.exists_opening_of_openDatabase`** : the file of a library that was opened is the one to
  which the path of its opening leads.
* `Disk.Admits` says that a library can be made where a path leads, **`Disk.opened_of_admits`** that
  it is made there.
* **`Disk.opened_file`** : the file that a path names is the one that is opened, if no part of the
  path is taken for something else.
* `Disk.opened_file_decoded` : otherwise it may be another file, which has a path of its own.
-/

set_option autoImplicit false

namespace Fonoteca

open Database

/-! ## Disks with more files -/

namespace Disk

/-- No way on a disk has changed, and nothing is gone. -/
structure Filled {α : Type} (d d' : Disk α) : Prop where
  home : d'.home = d.home
  way? : ∀ q, d'.root.way? q = d.root.way? q
  lookup : ∀ q, d'.root.lookup q = none → d.root.lookup q = none

namespace Filled

variable {α : Type} {d d' d'' : Disk α} {place : List Bytes} {content : α}

theorem refl (d : Disk α) : d.Filled d :=
  ⟨rfl, fun _ => rfl, fun _ => id⟩

theorem trans (h : d.Filled d') (h' : d'.Filled d'') : d.Filled d'' where
  home := h'.home.trans h.home
  way? := fun q => (h'.way? q).trans (h.way? q)
  lookup := fun q hq => h.lookup q (h'.lookup q hq)

/-- A file is written in a folder, over a file at most. -/
theorem putAt (hparent : d.root.standing? place.dropLast = some .folder)
    (hway : d.root.way? place = none) (content : α) :
    d.Filled (d.putAt place (.file content)) where
  home := rfl
  way? := Entries.way?_putAt hway content
  lookup := fun q hq => by
    have hne : place ≠ [] := by
      rintro rfl
      cases hway
    have hself : d.root.standing? place ≠ some .folder := by
      rw [Ne, Entries.standing?_eq_folder_iff, ← Entries.way?_eq_folder_iff, hway]
      simp
    have hput := Entries.standing?_putAt hparent hne hself (n := .file content) (by simp) q
    rw [← Entries.standing?_eq_none_iff] at hq ⊢
    rw [Disk.putAt, hput] at hq
    split at hq
    · cases hq
    · exact hq

theorem putFile (h : d.root.lookup place = some (.file content)) (content' : α) :
    d.Filled (d.putAt place (.file content')) :=
  putAt (Entries.standing?_dropLast (by simp [Entries.standing?_of_lookup h]))
    (Entries.way?_of_file h) content'

end Filled
end Disk

/-! ## The way of the database -/

namespace Database

variable {d d' : Disk Content} {links : Nat} {here steps place : List Bytes} {p : Path}

/-- **A place that is found with more files** is found without them. -/
theorem walk_of_filled (h : d.Filled d') (hwalk : walk d'.root links here steps = some place) :
    walk d.root links here steps = some place := by
  fun_induction walk d'.root links here steps with
  | case1 links here =>
    rw [walk]
    exact hwalk
  | case2 links here step rest hsilent ih =>
    rw [walk, if_pos hsilent]
    exact ih hwalk
  | case3 links here rest _ ih =>
    rw [walk_dots]
    exact ih hwalk
  | case6 here step rest hsilent hdots es hes hlength target hlink links ih =>
    have hlink' : d.root.lookup (here ++ [step]) = some (.link target) := by
      rw [← Entries.way?_eq_link_iff, ← h.way?, Entries.way?_eq_link_iff,
        Entries.lookup_concat_of_folder hes, hlink]
    have hleads := Path.leads_of_ne (fun hnil => hsilent (.inl hnil)) fun hdot => hsilent (.inr hdot)
    rw [walk_link hleads hdots hlength hlink']
    exact ih hwalk
  | case7 links here step rest hsilent hdots es hes hlength hlink ih =>
    obtain ⟨sub, hsub⟩ := Entries.way?_eq_folder_iff.1
      ((h.way? here).symm.trans (Entries.way?_eq_folder_iff.2 ⟨es, hes⟩))
    have hlink' : ∀ target, sub.find? step ≠ some (.link target) := by
      intro target htarget
      rw [← Entries.lookup_concat_of_folder hsub, ← Entries.way?_eq_link_iff, ← h.way?,
        Entries.way?_eq_link_iff, Entries.lookup_concat_of_folder hes] at htarget
      exact hlink target htarget
    rw [walk, if_neg hsilent, if_neg hdots, hsub]
    dsimp only
    rw [if_neg hlength]
    split
    · next target htarget => exact absurd htarget (hlink' target)
    · exact ih hwalk
  | case9 links here step rest hsilent hdots hnone ih =>
    rw [walk, if_neg hsilent, if_neg hdots, h.lookup here hnone]
    exact ih hwalk
  | case4 | case5 | case8 => cases hwalk

theorem placeOf?_of_filled (h : d.Filled d') (hplace : placeOf? d' p = some place) :
    placeOf? d p = some place := by
  rw [placeOf?, Option.filter_eq_some_iff, h.home] at hplace
  obtain ⟨hwalk, hfits⟩ := hplace
  rw [placeOf?, walk_of_filled h hwalk]
  exact Option.filter_some_pos hfits

end Database

/-! ## Opening -/

namespace Disk

open Address

variable {d d' : Disk Content} {a : Address} {o : Opening} {c : Connection} {store : Store}
  {s : String} {names : List Bytes} {logged : Bool}

theorem standing?_of_canHold (h : canHold d names = true) :
    d.root.standing? names.dropLast = some .folder := by
  rw [canHold] at h
  split at h
  · next hfolder => exact Entries.standing?_of_lookup hfolder
  · cases h

/-- A connection makes a file at most. -/
theorem filled_of_connect (h : d.connect o = .ok (c, d')) : d.Filled d' := by
  obtain ⟨-, ⟨-, -, rfl⟩ | ⟨-, names, -, -, ⟨-, rfl⟩ | ⟨hnone, -, hholds, rfl⟩⟩⟩ := connect_cases h
  · exact .refl d'
  · exact .refl d'
  · exact .putAt (standing?_of_canHold hholds) (Entries.way?_eq_none_iff.2 (.inl hnone)) _

theorem filled_of_startLog (h : d.startLog c = .ok d') : d.Filled d' := by
  obtain rfl | ⟨names, content, tables, -, hfile, -, rfl⟩ := startLog_cases h
  · exact .refl d'
  · exact .putFile hfile _

theorem filled_createDatabase (d : Disk Content) (a : Address) :
    d.Filled (d.createDatabase a).2 := by
  rcases createDatabase_cases d a with hsame | ⟨o, c, d₁, hconnect, hconnected | hlog⟩
  · rw [hsame]
    exact .refl d
  · rw [hconnected]
    exact filled_of_connect hconnect
  · exact (filled_of_connect hconnect).trans (filled_of_startLog hlog)

/-- The connection to a file is to the one to which the path leads. -/
theorem placeOf?_of_connect (h : d.connect o = .ok (c, d')) (hc : c.file? = some names) :
    placeOf? d o.path = some names := by
  obtain ⟨-, ⟨-, rfl, -⟩ | ⟨-, found, hfound, rfl, -⟩⟩ := connect_cases h
  · cases hc
  · obtain rfl : found = names := Option.some.inj hc
    exact hfound

/-- A connection without a file is one to memory. -/
theorem isInMemory_of_connect (h : d.connect o = .ok (c, d')) (hc : c.file? = none) :
    isInMemory o = true := by
  obtain ⟨-, ⟨hmemory, -⟩ | ⟨-, found, -, rfl, -⟩⟩ := connect_cases h
  · exact hmemory
  · cases hc

/-- **A library that was opened** is in the file to which the path of its opening led before, or in
memory if the opening asks for that. -/
theorem exists_opening_of_openDatabase {address : String} {stored : Place}
    (h : d.openDatabase address = (.ok (store, stored), d')) :
    ∃ a o, parse? address = .ok a ∧ a.opening a.creates = .ok o ∧
      (stored = .memory ∧ isInMemory o = true ∨
        ∃ names logged, stored = .file names logged ∧ placeOf? d o.path = some names ∧
          store.readOnly = (Connection.ofOpening o names).readOnly) := by
  obtain ⟨a, o, c, d₁, d₂, hparse, hopening, hmade, hconnect, hsetUp⟩ := openDatabase_eq_ok h
  refine ⟨a, o, hparse, hopening, ?_⟩
  cases stored with
  | memory => exact .inl ⟨rfl, isInMemory_of_connect hconnect (setUp_memory_eq_ok hsetUp).1⟩
  | file names logged =>
    have hfilled : d.Filled d₁ := by
      rcases hmade with rfl | hcreate
      · exact .refl d₁
      · have hcreated := filled_createDatabase d a
        rwa [hcreate] at hcreated
    obtain ⟨hc, hstore, -⟩ := setUp_eq_ok hsetUp
    obtain ⟨-, -, rfl, -⟩ := connect_eq_ok hconnect hc
    refine .inr ⟨names, logged, rfl, ?_, by rw [hstore]⟩
    exact placeOf?_of_filled hfilled (placeOf?_of_connect hconnect hc)

/-! ## Paths that are what they say -/

theorem isInMemory_of_isPlain (h : IsPlain s) (hne : s ≠ "") (access : Access) :
    isInMemory { path := .ofString s, access } = false := by
  have hbytes : (Path.ofString s).bytes ≠ [] := fun hnil =>
    hne (Path.ofString_inj.1 (congrArg Path.mk hnil : Path.ofString s = .ofString ""))
  have hmemory : Path.ofString s ≠ .ofString memoryName := fun heq =>
    h.notMemory (Path.ofString_inj.1 heq)
  simp [isInMemory, isNamed, hbytes, hmemory, memorySystem]

/-- A path that is not taken for anything else leads to the file of its own. -/
theorem placeOf?_of_isPlain (h : IsPlain s) (hne : s ≠ "") {stored : Place}
    (hopen : d.openDatabase (address (some (.ofString s))) = (.ok (store, stored), d')) :
    store.readOnly = false ∧
      ∃ names logged, stored = .file names logged ∧ placeOf? d (.ofString s) = some names := by
  obtain ⟨a, o, hparse, hopening, hstored⟩ := exists_opening_of_openDatabase hopen
  rw [parse?_of_isSpelled h.toIsSpelled] at hparse
  cases hparse
  rw [opening_of_isPlain h] at hopening
  cases hopening
  rcases hstored with ⟨-, hmemory⟩ | ⟨names, logged, rfl, hplace, hread⟩
  · rw [isInMemory_of_isPlain h hne] at hmemory
    cases hmemory
  · refine ⟨?_, names, logged, rfl, hplace⟩
    rw [hread]
    simp [Connection.ofOpening]

/-- Such a path leads to the library that stands at its place. -/
theorem leads_of_isPlain (h : IsPlain s) (hne : s ≠ "")
    (hfits : (!names.isEmpty && Nat.ble (pathLength names) maxPathLength) = true) (logged : Bool) :
    ∃ c, Leads (address (some (.ofString s))) (.ofString s) names logged c ∧
      c.readOnly = false := by
  refine ⟨_, ⟨⟨_, _, parse?_of_isSpelled h.toIsSpelled, opening_of_isPlain h false, rfl, rfl, ?_,
    isInMemory_of_isPlain h hne _, rfl⟩, hfits, ?_⟩, ?_⟩
  · simp [systems]
  · simp [Connection.ofOpening, systems]
  · simp [Connection.ofOpening]

/-! ### New libraries -/

/-- A file can be made where a path leads, for a library with its log beside it. -/
structure Admits (d : Disk Content) (p : Path) (names : List Bytes) : Prop where
  way : d.locate true p = .ok names
  free : d.root.lookup names = none
  holds : canHold d names = true
  beside : ∀ ending ∈ companions true, d.root.way? (Database.beside names ending) = none
  hasJournal : hasJournal names = true
  fits : (!names.isEmpty && Nat.ble (pathLength names) maxPathLength) = true

namespace Admits

variable {p : Path}

theorem filled_putAt (h : d.Admits p names) (content : Content) :
    d.Filled (d.putAt names (.file content)) :=
  .putAt (standing?_of_canHold h.holds) (Entries.way?_eq_none_iff.2 (.inl h.free)) content

theorem lookup_putAt (h : d.Admits p names) (content : Content) :
    (d.putAt names (.file content)).root.lookup names = some (.file content) := by
  have hne : names ≠ [] := by
    rintro rfl
    cases h.free
  have hput := Entries.standing?_putAt (standing?_of_canHold h.holds) hne
    (by simp [Entries.standing?_eq_none_iff.2 h.free]) (n := .file content) (by simp) names
  rw [if_pos rfl] at hput
  exact Entries.standing?_eq_file_iff.1 hput

/-- What a file that is made there holds can be taken for what was there. -/
theorem carries (h : d.Admits p names) (content : Content) (tables : Tables) (logged : Bool) :
    ((d.putAt names (.file content)).putAt names (.file (.database tables logged))).Carries p names
      tables logged := by
  have hfilled := (h.filled_putAt content).trans (.putFile (h.lookup_putAt content)
    (.database tables logged))
  exact ⟨locate_of_ways hfilled.way? h.way,
    fun ending hending => (hfilled.way? _).trans (h.beside ending hending),
    Entries.lookup_putAt_self (h.lookup_putAt content) _⟩

/-- The database finds the place, though nothing is there yet. -/
theorem placeOf?_eq (h : d.Admits p names) : placeOf? d p = some names := by
  have hfilled := h.filled_putAt (.bytes [])
  refine placeOf?_of_filled hfilled ?_
  exact placeOf?_of_locate (locate_of_ways hfilled.way? h.way) (h.lookup_putAt _) h.fits

theorem isThere_eq (h : d.Admits p names) : d.isThere p = false := by
  rw [isThere, node, h.way]
  dsimp only [bind, Except.bind]
  rw [h.free]
  rfl

end Admits

/-- The file of a new library is made where its path leads. -/
theorem createDatabase_of_isPlain (h : IsPlain s) (hne : s ≠ "")
    (hadmits : d.Admits (.ofString s) names) :
    d.createDatabase { name := s } = (.ok (), (d.putAt names (.file (.bytes []))).putAt names
      (.file (.database {} true))) := by
  have hopening := opening_of_isPlain h true
  rw [if_pos rfl] at hopening
  have hconnect : d.connect { path := .ofString s, access := .create } =
      .ok (.ofOpening { path := .ofString s, access := .create } names,
        d.putAt names (.file (.bytes []))) := by
    rw [connect, if_neg (by simp [systems]), if_neg (by simp [isInMemory_of_isPlain h hne]),
      hadmits.placeOf?_eq]
    dsimp only
    rw [hadmits.free]
    exact if_pos ⟨rfl, hadmits.holds⟩
  have hlog : (d.putAt names (.file (.bytes []))).startLog
      (.ofOpening { path := .ofString s, access := .create } names) =
        .ok ((d.putAt names (.file (.bytes []))).putAt names (.file (.database {} true))) := by
    rw [startLog]
    dsimp only [Connection.ofOpening]
    rw [hadmits.lookup_putAt]
    simp [emptySize, systems, hadmits.hasJournal]
  rw [createDatabase, hopening]
  dsimp only [Except.bind]
  rw [hconnect]
  dsimp only
  rw [hlog]

/-- **A new library is made** where a path leads that is not taken for anything else. -/
theorem opened_of_admits (h : IsPlain s) (hne : s ≠ "") (hadmits : d.Admits (.ofString s) names) :
    ∃ d', d.openDatabase (address (some (.ofString s))) = (.ok ({}, .file names true), d') := by
  obtain ⟨c, ⟨⟨a, o, hparse, hopening, hpath, -, hsystem, hfile, rfl⟩, -, husable⟩, hread⟩ :=
    leads_of_isPlain h hne hadmits.fits true
  rw [parse?_of_isSpelled h.toIsSpelled] at hparse
  cases hparse
  have hcarries := hadmits.carries (.bytes []) {} true
  obtain ⟨d', hsetUp, -⟩ := hcarries.setUp rfl husable
  rw [hread] at hsetUp
  refine ⟨d', ?_⟩
  rw [openDatabase, parse?_of_isSpelled h.toIsSpelled]
  dsimp only
  rw [hadmits.isThere_eq, Bool.or_false, if_neg (by simp),
    createDatabase_of_isPlain h hne hadmits]
  dsimp only
  rw [hopening]
  dsimp only [Except.bind]
  rw [hcarries.connect hpath hsystem hfile hadmits.fits]
  dsimp only
  rw [hsetUp]

/-- **The file that a path names is the one that is opened**, if no part of the path is taken for
something else; the path is what is opened in no other case.  Two such paths are opened as
different paths.  A library that is opened by such a path is in the file to which the path leads,
and may be written; the one that stands there is opened, and if none is there a new one is made. -/
theorem opened_file (s : String) :
    (parse? (address (some (.ofString s))) = .ok { name := s } ↔ IsSpelled s) ∧
    (∀ creating, openedPath (address (some (.ofString s))) creating = .ok (.ofString s) ↔
      IsPlain s) ∧
    (IsPlain s → ∀ t creating, IsPlain t → openedPath (address (some (.ofString t))) creating =
      openedPath (address (some (.ofString s))) creating → t = s) ∧
    (IsPlain s → s ≠ "" → ∀ (d d' : Disk Content) (store : Store) (stored : Place),
      d.openDatabase (address (some (.ofString s))) = (.ok (store, stored), d') →
        store.readOnly = false ∧
          ∃ names logged, stored = .file names logged ∧ placeOf? d (.ofString s) = some names) ∧
    (IsPlain s → s ≠ "" → ∀ (d : Disk Content) names tables logged,
      d.Carries (.ofString s) names tables logged →
      (!names.isEmpty && Nat.ble (pathLength names) maxPathLength) = true →
        ∃ d', d.openDatabase (address (some (.ofString s))) =
          (.ok ({ tables }, .file names logged), d')) ∧
    (IsPlain s → s ≠ "" → ∀ (d : Disk Content) names, d.Admits (.ofString s) names →
      ∃ d', d.openDatabase (address (some (.ofString s))) = (.ok ({}, .file names true), d')) := by
  refine ⟨parse?_eq_iff, fun _ => openedPath_eq_iff, fun hs t creating ht heq => ?_,
    fun hs hne d d' store stored => placeOf?_of_isPlain hs hne,
    fun hs hne d names tables logged hcarries hfits => ?_,
    fun hs hne d names => opened_of_admits hs hne⟩
  · rw [openedPath_of_isPlain ht, openedPath_of_isPlain hs] at heq
    exact Path.ofString_inj.1 (Except.ok.inj heq)
  · obtain ⟨c, hleads, hread⟩ := leads_of_isPlain hs hne hfits logged
    obtain ⟨d', hopen, -⟩ := hcarries.openDatabase hleads
    rw [hread] at hopen
    exact ⟨d', hopen⟩

/-- A sign that encodes nothing stays what it is, and one path opens the library in the one file of
a disk, or a new library on a disk without files. -/
theorem opened_file_oneFile :
    openedPath (address (some (.ofString "50%.db"))) true = .ok (.ofString "50%.db") ∧
    (∃ d', (oneFile (.database {} false)).openDatabase (address (some (.ofString "x"))) =
      (.ok ({}, .file onePlace false), d')) ∧
    ∃ d', (Disk.empty [0x77]).openDatabase (address (some (.ofString "x"))) =
      (.ok ({}, .file onePlace true), d') := by
  refine ⟨((opened_file "50%.db").2.1 true).2 (by decide +kernel), ?_⟩
  obtain ⟨-, -, -, -, hthere, hnew⟩ := opened_file "x"
  have hplain : IsPlain "x" := by decide +kernel
  have hcarries : (oneFile (.database {} false)).Carries (.ofString "x") onePlace {} false := by
    rw [ofString_onePath]
    exact ⟨locate_oneFile _, by decide +kernel, rfl⟩
  have hadmits : (Disk.empty [0x77]).Admits (.ofString "x") onePlace := by
    rw [ofString_onePath]
    exact ⟨by cbv, rfl, by decide +kernel, by decide +kernel, by decide +kernel, by decide +kernel⟩
  exact ⟨hthere hplain (by decide) _ _ _ _ hcarries (by decide +kernel),
    hnew hplain (by decide) _ _ hadmits⟩

/-- **A path with a byte that looks encoded** opens another file, the one with the decoded name, and
what stands behind a question mark is taken for an option. -/
theorem opened_file_decoded :
    ("%78.db" ≠ memoryName ∧ ¬ ['/', '/'] <+: "%78.db".toList) ∧
    Path.ofString "%78.db" ≠ .ofString "x.db" ∧
    openedPath (address (some (.ofString "%78.db"))) true = .ok (.ofString "x.db") ∧
    openedPath (address (some (.ofString "x.db"))) true = .ok (.ofString "x.db") ∧
    (∀ d : Disk Content, d.openDatabase (address (some (.ofString "%78.db"))) =
      d.openDatabase (address (some (.ofString "x.db")))) ∧
    parse? (address (some (.ofString "x.db?mode=ro"))) =
      .ok { name := "x.db", readOnly := true } := by
  have hplain : IsPlain "x.db" := by decide +kernel
  have hdecoded : parse? (address (some (.ofString "%78.db"))) = .ok { name := "x.db" } := by
    rw [address_ofString, parse?_append (by decide +kernel) (by decide +kernel)]
    decide +kernel
  have hsame : parse? (address (some (.ofString "%78.db"))) =
      parse? (address (some (.ofString "x.db"))) := by
    rw [hdecoded, parse?_of_isSpelled hplain.toIsSpelled]
  refine ⟨by decide +kernel, by decide +kernel, ?_, openedPath_of_isPlain hplain true,
    fun d => ?_, ?_⟩
  · rw [openedPath, hsame, ← openedPath, openedPath_of_isPlain hplain]
  · rw [openDatabase, hsame, ← openDatabase]
  · rw [address_ofString, parse?_append (by decide +kernel) (by decide +kernel)]
    decide +kernel

end Disk
end Fonoteca
