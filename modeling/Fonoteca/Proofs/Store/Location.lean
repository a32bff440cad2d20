import Mathlib.Data.List.Infix
import Fonoteca.Proofs.Disk.Ways
import Fonoteca.Proofs.Path
import Fonoteca.Proofs.Store.Address
import Fonoteca.Store.Location

/-!
# Where an address leads

The database finds the file that an address names in its own way, and it writes and deletes files
while it is in use.  None of this moves a library: the file that the path of the address leads to
stays the one that it leads to, as long as nothing but files stands under the names that the
database needs beside it.

* **`Database.walk_of_walk`** : where the system follows a path to something that is there, the
  database gets to the same place.
* `Database.path?` is the path that an address is, and `Database.Leads` says that a connection to a
  file can be made with it.
* `Disk.Carries` says that a path leads to a library.  A library that comes into use and one that is
  put back keep that (`Carries.useDatabase`, `Carries.keepDatabase`).
* **`Disk.Carries.openDatabase`** : such a library is opened with the tables in its file.
* `Disk.connect_cases`, `Disk.startLog_cases` and `Disk.createDatabase_cases` say what each step of
  opening does to the disk, `Disk.openDatabase_eq_ok` puts them together.
* **`Disk.leads_of_openDatabase`** : a library that was opened has such an address.
* `Disk.oneFile` is a small disk on which this can be tried.
-/

set_option autoImplicit false

namespace Fonoteca

/-! ## The way of the database -/

namespace Database

variable {root : Entries Content} {links : Nat} {here rest place : List Bytes} {step : Bytes}

/-- Steps that do not lead anywhere are passed over. -/
theorem walk_append_of_silent {silent : List Bytes} (h : ∀ step ∈ silent, Path.leads step = false)
    (root : Entries Content) (links : Nat) (here rest : List Bytes) :
    walk root links here (silent ++ rest) = walk root links here rest := by
  induction silent with
  | nil => rfl
  | cons step silent ih =>
    rw [List.cons_append, walk, if_pos (Path.leads_eq_false_iff.1 (h step (.head _)))]
    exact ih fun step hmem => h step (.tail _ hmem)

theorem walk_dots (root : Entries Content) (links : Nat) (here rest : List Bytes) :
    walk root links here ([Path.dot, Path.dot] :: rest) = walk root links here.dropLast rest := by
  rw [walk, if_neg (by decide), if_pos rfl]

/-- A step to a folder or file that is there. -/
theorem walk_name (hleads : Path.leads step = true) (hdots : step ≠ [Path.dot, Path.dot])
    (hlength : ¬ Disk.maxNameLength < step.length) {n : Node Content}
    (hn : root.lookup (here ++ [step]) = some n) (hlink : ∀ target, n ≠ .link target) :
    walk root links here (step :: rest) = walk root links (here ++ [step]) rest := by
  obtain ⟨sub, hsub, hfind⟩ := Entries.lookup_concat_eq_some hn
  have hsilent : ¬ (step = [] ∨ step = [Path.dot]) := by
    simpa [Path.leads] using hleads
  rw [walk, if_neg hsilent, if_neg hdots, hsub]
  dsimp only
  rw [if_neg hlength, hfind]
  rcases n with _ | target | _
  · rfl
  · exact absurd rfl (hlink target)
  · rfl

/-- A step to a link goes on along it. -/
theorem walk_link (hleads : Path.leads step = true) (hdots : step ≠ [Path.dot, Path.dot])
    (hlength : ¬ Disk.maxNameLength < step.length) {target : Path}
    (hlink : root.lookup (here ++ [step]) = some (.link target)) :
    walk root (links + 1) here (step :: rest) =
      walk root links (if target.isAbsolute then [] else here)
        (Path.segments target.bytes ++ rest) := by
  obtain ⟨sub, hsub, hfind⟩ := Entries.lookup_concat_eq_some hlink
  have hsilent : ¬ (step = [] ∨ step = [Path.dot]) := by
    simpa [Path.leads] using hleads
  rw [walk, if_neg hsilent, if_neg hdots, hsub]
  dsimp only
  rw [if_neg hlength, hfind]

/-- What leads on in some steps comes after what is passed over. -/
theorem walk_of_filter_cons {steps steps' : List Bytes} (hleads : Path.leads step = true)
    (hsteps : steps'.filter Path.leads = (step :: steps).filter Path.leads) :
    ∃ rest, rest.filter Path.leads = steps.filter Path.leads ∧
      ∀ root links here, walk root links here steps' = walk root links here (step :: rest) := by
  rw [List.filter_cons_of_pos hleads, List.filter_eq_cons_iff] at hsteps
  obtain ⟨silent, rest, rfl, hsilent, -, hrest⟩ := hsteps
  exact ⟨rest, hrest, fun root links here =>
    walk_append_of_silent (fun step hstep => by simpa using hsilent step hstep) _ _ _ _⟩

/-- **The database goes the way of the system** to whatever stands at its end. -/
theorem walk_of_walk {steps steps' : List Bytes} {n : Node Content} {links' : Nat}
    (h : Disk.walk root true links here steps = .ok place) (hn : root.lookup place = some n)
    (hlinks : links ≤ links') (hempty : [] ∉ steps)
    (hsteps : steps'.filter Path.leads = steps.filter Path.leads) :
    walk root links' here steps' = some place := by
  have hleads : ∀ {step : Bytes} {steps : List Bytes}, [] ∉ step :: steps → step ≠ [Path.dot] →
      Path.leads step = true := by
    intro step steps hempty hdot
    exact Path.leads_of_ne (fun hnil => hempty (hnil ▸ .head _)) hdot
  have hend : ∀ {root : Entries Content} {links here}, walk root links here [] = some here := by
    intro root links here
    rw [walk]
  fun_induction Disk.walk root true links here steps generalizing links' steps' with
  | case1 links here =>
    have hsilent : ∀ step ∈ steps', Path.leads step = false := by simpa using hsteps
    have hwalk := walk_append_of_silent hsilent root links' here []
    rw [List.append_nil, hend] at hwalk
    cases h
    exact hwalk
  | case2 links here rest ih => exact ih h hlinks (List.not_mem_of_not_mem_cons hempty) hsteps
  | case3 links here rest hdots ih =>
    obtain ⟨rest', hrest, hwalk⟩ := walk_of_filter_cons (hleads hempty hdots) hsteps
    rw [hwalk, walk_dots]
    exact ih h hlinks (List.not_mem_of_not_mem_cons hempty) hrest
  | case5 links here step rest hdot hdots hlength there sub hsub =>
    rename_i ih
    obtain ⟨rest', hrest, hwalk⟩ := walk_of_filter_cons (hleads hempty hdot) hsteps
    rw [hwalk, walk_name (hleads hempty hdot) hdots hlength hsub (by simp)]
    exact ih h hlinks (List.not_mem_of_not_mem_cons hempty) hrest
  | case8 here step rest hdot hdots hlength there target hlink hlast links =>
    rename_i ih
    obtain ⟨rest', hrest, hwalk⟩ := walk_of_filter_cons (hleads hempty hdot) hsteps
    obtain ⟨links', rfl⟩ : ∃ more, links' = more + 1 := ⟨links' - 1, by omega⟩
    rw [hwalk, walk_link (hleads hempty hdot) hdots hlength hlink]
    refine ih h (by omega) ?_ ?_
    · simp [target.not_mem_steps, List.not_mem_of_not_mem_cons hempty]
    · rw [List.filter_append, List.filter_append, hrest, target.filter_leads_steps]
  | case9 links here step hdot hdots hlength there contents =>
    rename_i hfile
    obtain ⟨rest', hrest, hwalk⟩ := walk_of_filter_cons (hleads hempty hdot) hsteps
    have hsilent : ∀ step ∈ rest', Path.leads step = false := by simpa using hrest
    have hlast := walk_append_of_silent hsilent root links' (here ++ [step]) []
    rw [List.append_nil, hend] at hlast
    rw [hwalk, walk_name (hleads hempty hdot) hdots hlength hfile (by simp), hlast]
    exact congrArg some (Except.ok.inj h)
  | case11 links here step hdot hdots hlength there =>
    rename_i hnone
    rw [← Except.ok.inj h, hnone] at hn
    cases hn
  | case6 =>
    rename_i hlast
    exact absurd hlast.2 (by decide)
  | case4 | case7 | case10 | case12 => cases h

/-! ## The path of a file -/

/-- The path that an address is, unless it says in some other way which file it means. -/
def path? (address : String) : Option Path :=
  (Address.parse? address).toOption.bind fun a =>
    (a.opening a.creates).toOption.bind fun o =>
      if o.path = .ofString a.name then some o.path else none

theorem eq_ok_of_toOption {α ε : Type} {r : Except ε α} {a : α} (h : r.toOption = some a) :
    r = .ok a := by
  cases r with
  | ok b => exact congrArg Except.ok (Option.some.inj h)
  | error e => cases h

theorem exists_opening_of_path? {address : String} {p : Path} (h : path? address = some p) :
    ∃ a o, Address.parse? address = .ok a ∧ a.opening a.creates = .ok o ∧ o.path = p ∧
      p = .ofString a.name := by
  rw [path?, Option.bind_eq_some_iff] at h
  obtain ⟨a, ha, h⟩ := h
  rw [Option.bind_eq_some_iff] at h
  obtain ⟨o, ho, h⟩ := h
  split at h
  · next hname =>
    cases h
    exact ⟨a, o, eq_ok_of_toOption ha, eq_ok_of_toOption ho, rfl, hname⟩
  · cases h

/-- An address makes a connection to a file, wherever a database of this kind stands at its
place. -/
structure Leads (address : String) (p : Path) (place : List Bytes) (logged : Bool)
    (c : Connection) : Prop where
  exists_opening : ∃ a o, Address.parse? address = .ok a ∧ a.opening a.creates = .ok o ∧
    o.path = p ∧ p = .ofString a.name ∧
    ¬ (o.system ≠ memorySystem ∧ (systems.lookup o.system).isNone) ∧ isInMemory o = false ∧
    c = .ofOpening o place
  fits : (!place.isEmpty && Nat.ble (pathLength place) maxPathLength) = true
  usable : ¬ (logged ∧ c.canLog = false ∧ c.immutable = false)

end Database

namespace Disk

open Database

variable {d d' : Disk Content} {p : Path} {place : List Bytes} {tables : Tables} {logged : Bool}

/-- A path names the same place in every tree with the same ways. -/
theorem locate_of_ways {α : Type} {d : Disk α} {root : Entries α}
    (hways : ∀ q, root.way? q = d.root.way? q) {follow : Bool} {p : Path} {place : List Bytes}
    (h : d.locate follow p = .ok place) :
    ({ d with root } : Disk α).locate follow p = .ok place := by
  rw [locate] at h ⊢
  split at h
  · cases h
  split at h
  · cases h
  split at h
  · cases h
  · simp only [*, if_false]
    exact walk_of_ways hways h

/-- The database finds the file that the system finds. -/
theorem placeOf?_of_locate {n : Node Content} (h : d.locate true p = .ok place)
    (hn : d.root.lookup place = some n)
    (hfits : (!place.isEmpty && Nat.ble (pathLength place) maxPathLength) = true) :
    placeOf? d p = some place := by
  rw [locate] at h
  split at h
  · cases h
  split at h
  · cases h
  split at h
  · cases h
  rw [placeOf?, walk_of_walk h hn (by decide) p.not_mem_steps p.filter_leads_steps.symm]
  exact Option.filter_some_pos hfits

/-- What holds of the disk once the tables are in their file, and is kept by files beside it, holds
while the database is in use. -/
theorem useDatabase_induct {P : Disk Content → Prop} {shared : Bool}
    (hput : P (d.putAt place (.file (.database tables logged))))
    (hbeside : ∀ d ending, ending ∈ companions true → P d →
      P (d.putAt (Database.beside place ending) (.file (.bytes [])))) :
    P (d.useDatabase place tables logged shared) := by
  have hendings : ∀ ending ∈ companions shared, ending ∈ companions true := by
    cases shared <;> simp [companions]
  rw [useDatabase]
  split
  · generalize d.putAt place (.file (.database tables logged)) = d₁ at hput
    generalize companions shared = endings at hendings
    induction endings generalizing d₁ with
    | nil => exact hput
    | cons ending endings ih =>
      obtain ⟨hfirst, hrest⟩ := List.forall_mem_cons.1 hendings
      exact ih _ (hbeside _ _ hfirst hput) hrest
  · exact hput

/-- A disk with a library at a place: a path leads to its file, and no way goes on at the places
beside it that the library may need. -/
structure Carries (d : Disk Content) (p : Path) (place : List Bytes) (tables : Tables)
    (logged : Bool) : Prop where
  way : d.locate true p = .ok place
  beside : ∀ ending ∈ companions true, d.root.way? (Database.beside place ending) = none
  file : d.root.lookup place = some (.file (.database tables logged))

/-- The files beside a place are at other places, and the file is not below them. -/
theorem not_below_beside (hplace : place ≠ []) {ending : String} (h : ending ∈ companions true) :
    ¬ Database.beside place ending <+: place := by
  have hending : Text.Utf8.encode ending ≠ [] := by
    rcases (by simpa [companions] using h : ending = logIndex ∨ ending = log) with rfl | rfl
    · decide +kernel
    · decide +kernel
  obtain ⟨before, name, rfl⟩ := List.eq_nil_or_concat place |>.resolve_left hplace
  intro hbelow
  simp [Database.beside] at hbelow
  exact hending hbelow

namespace Carries

theorem ne_nil (h : d.Carries p place tables logged) : place ≠ [] := by
  rintro rfl
  cases h.file

/-- A change that leaves the ways as they are, and the file where it is. -/
theorem of_ways (h : d.Carries p place tables logged) {root : Entries Content}
    (hways : ∀ q, root.way? q = d.root.way? q) {tables' : Tables} {logged' : Bool}
    (hfile : root.lookup place = some (.file (.database tables' logged'))) :
    ({ d with root } : Disk Content).Carries p place tables' logged' where
  way := locate_of_ways hways h.way
  beside := fun ending hending => (hways _).trans (h.beside ending hending)
  file := hfile

theorem putTables (h : d.Carries p place tables logged) (tables' : Tables) (logged' : Bool) :
    (d.putAt place (.file (.database tables' logged'))).Carries p place tables' logged' :=
  h.of_ways (fun q => Entries.way?_putAt (Entries.way?_of_file h.file) _ q)
    (Entries.lookup_putAt_self h.file _)

theorem putBeside (h : d.Carries p place tables logged) {ending : String}
    (hending : ending ∈ companions true) (content : Content) :
    (d.putAt (Database.beside place ending) (.file content)).Carries p place tables logged :=
  h.of_ways (fun q => Entries.way?_putAt (h.beside ending hending) _ q)
    (Entries.lookup_putAt_of_not_below (not_below_beside h.ne_nil hending) h.file _)

theorem eraseBeside (h : d.Carries p place tables logged) (ending : String)
    (hending : ending ∈ companions true) :
    ({ d with root := d.root.eraseAt (Database.beside place ending) } : Disk Content).Carries
      p place tables logged :=
  h.of_ways (fun q => Entries.way?_eraseAt (h.beside ending hending) q)
    (Entries.lookup_eraseAt_of_not_below (not_below_beside h.ne_nil hending) h.file)

/-- A library that comes into use stays where it is. -/
theorem useDatabase (h : d.Carries p place tables logged) (tables' : Tables)
    (logged' shared : Bool) :
    (d.useDatabase place tables' logged' shared).Carries p place tables' logged' :=
  useDatabase_induct (P := fun d => d.Carries p place tables' logged')
    (h.putTables tables' logged') fun _ _ hending hd => hd.putBeside hending _

/-- So does one that is in use no more. -/
theorem keepDatabase (h : d.Carries p place tables logged) {s : Store}
    (hwrite : s.readOnly = false) :
    (d.keepDatabase (.file place logged) s).Carries p place s.tables logged := by
  have herase := (h.eraseBeside logIndex (.head _)).eraseBeside log (.tail _ (.head _))
  rw [Disk.keepDatabase, if_neg (by simp [hwrite])]
  exact herase.putTables s.tables logged

end Carries

/-! ## Opening -/

/-- The connection is made on every disk with such a library at the place. -/
theorem Carries.connect (h : d.Carries p place tables logged) {o : Opening}
    (hpath : o.path = p) (hsystem : ¬ (o.system ≠ memorySystem ∧ (systems.lookup o.system).isNone))
    (hfile : isInMemory o = false)
    (hfits : (!place.isEmpty && Nat.ble (pathLength place) maxPathLength) = true) :
    d.connect o = .ok (.ofOpening o place, d) := by
  subst hpath
  rw [Disk.connect, if_neg hsystem, if_neg (by simp [hfile]), placeOf?_of_locate h.way h.file hfits]
  dsimp only
  rw [h.file]

theorem Carries.setUp (h : d.Carries p place tables logged) {c : Connection}
    (hc : c.file? = some place) (husable : ¬ (logged ∧ c.canLog = false ∧ c.immutable = false)) :
    ∃ d', d.setUp c = .ok ({ tables, readOnly := c.readOnly }, .file place logged, d') ∧
      d'.Carries p place tables logged := by
  rw [Disk.setUp, hc]
  dsimp only
  rw [h.file]
  dsimp only
  rw [if_neg husable]
  refine ⟨_, rfl, ?_⟩
  split
  · exact h
  · exact h.useDatabase _ _ _

/-- **A library is opened again** with the tables that its file holds. -/
theorem Carries.openDatabase (h : d.Carries p place tables logged) {address : String}
    {c : Connection} (hleads : Leads address p place logged c) :
    ∃ d', d.openDatabase address =
        (.ok ({ tables, readOnly := c.readOnly }, .file place logged), d') ∧
      d'.Carries p place tables logged := by
  obtain ⟨⟨a, o, hparse, hopening, hpath, hname, hsystem, hfile, rfl⟩, hfits, husable⟩ := hleads
  have hthere : d.isThere p = true := by
    rw [Disk.isThere, Disk.node, h.way]
    dsimp only [bind, Except.bind]
    rw [h.file]
    rfl
  obtain ⟨d', hsetUp, hcarries⟩ := h.setUp rfl husable
  refine ⟨d', ?_, hcarries⟩
  rw [Disk.openDatabase, hparse]
  dsimp only
  rw [← hname, hthere, Bool.or_true, if_pos rfl, hopening]
  dsimp only [Except.bind]
  rw [h.connect hpath hsystem hfile hfits]
  dsimp only
  rw [hsetUp]

/-- A database in use is in its file. -/
theorem lookup_useDatabase {content : Content} (h : d.root.lookup place = some (.file content))
    (tables : Tables) (logged shared : Bool) :
    (d.useDatabase place tables logged shared).root.lookup place =
      some (.file (.database tables logged)) := by
  have hplace : place ≠ [] := by
    rintro rfl
    cases h
  refine useDatabase_induct (P := fun d => d.root.lookup place = some (.file (.database _ _)))
    (Entries.lookup_putAt_self h _) fun d ending hending hd => ?_
  exact Entries.lookup_putAt_of_not_below (not_below_beside hplace hending) hd _

/-- What a connection can be: one to memory, or one to the file at the place to which the path
leads, which is made if it is missing. -/
theorem connect_cases {o : Opening} {c : Connection} (h : d.connect o = .ok (c, d')) :
    ¬ (o.system ≠ memorySystem ∧ (systems.lookup o.system).isNone) ∧
      ((isInMemory o = true ∧ c = .ofOpening o none ∧ d' = d) ∨
        isInMemory o = false ∧ ∃ found, placeOf? d o.path = some found ∧ c = .ofOpening o found ∧
          ((∃ content, d.root.lookup found = some (.file content)) ∧ d' = d ∨
            d.root.lookup found = none ∧ o.access = .create ∧ canHold d found = true ∧
              d' = d.putAt found (.file (.bytes [])))) := by
  rw [Disk.connect] at h
  split at h
  · cases h
  next hsystem =>
  refine ⟨hsystem, ?_⟩
  split at h
  · next hmemory =>
    cases h
    exact .inl ⟨hmemory, rfl, rfl⟩
  next hfile =>
  refine .inr ⟨by simpa using hfile, ?_⟩
  split at h
  · cases h
  next found hfound =>
  dsimp only at h
  split at h
  · next content hcontent =>
    cases h
    exact ⟨found, hfound, rfl, .inl ⟨⟨content, hcontent⟩, rfl⟩⟩
  · cases h
  · cases h
  · next hnone =>
    split at h
    · next hcreates =>
      cases h
      exact ⟨found, hfound, rfl, .inr ⟨hnone, hcreates.1, hcreates.2, rfl⟩⟩
    · cases h

/-- What a new log does: nothing, or the file of the connection holds a logged database from then
on, with the tables that were in it. -/
theorem startLog_cases {c : Connection} (h : d.startLog c = .ok d') :
    d' = d ∨ ∃ names content tables, c.file? = some names ∧
      d.root.lookup names = some (.file content) ∧
      ((∃ bytes, content = .bytes bytes ∧ tables = {}) ∨ content = .database tables false) ∧
      d' = d.putAt names (.file (.database tables true)) := by
  rw [Disk.startLog] at h
  split at h
  · cases h
    exact .inl rfl
  next names hnames =>
  have hlogging : ∀ {tables : Tables}, (if c.immutable ∨ c.canLog = false then Except.ok d
      else if c.readOnly then .error Fault.readOnly
      else if hasJournal names then .ok (d.putAt names (.file (.database tables true)))
      else .error .cannotOpen) = .ok d' →
      d' = d ∨ d' = d.putAt names (.file (.database tables true)) := by
    intro tables hd
    split_ifs at hd
    · cases hd
      exact .inl rfl
    · cases hd
      exact .inr rfl
  dsimp only at h
  split at h
  · next bytes hbytes =>
    split at h
    · cases h
    · exact (hlogging h).imp_right fun hput =>
        ⟨names, _, {}, hnames, hbytes, .inl ⟨bytes, rfl, rfl⟩, hput⟩
  · split at h
    · cases h
      exact .inl rfl
    · cases h
  · next tables htables =>
    exact (hlogging h).imp_right fun hput => ⟨names, _, tables, hnames, htables, .inr rfl, hput⟩
  · cases h

/-- What is done to make a file: there may be a connection, and then a new log. -/
theorem createDatabase_cases (d : Disk Content) (a : Address) :
    (d.createDatabase a).2 = d ∨ ∃ o c d₁, d.connect o = .ok (c, d₁) ∧
      ((d.createDatabase a).2 = d₁ ∨ d₁.startLog c = .ok (d.createDatabase a).2) := by
  rw [Disk.createDatabase]
  split
  · exact .inl rfl
  next c d₁ hconnect =>
  obtain ⟨o, -, hconnect⟩ := bind_eq_ok hconnect
  refine .inr ⟨o, c, d₁, hconnect, ?_⟩
  split
  · exact .inl rfl
  · next hlog => exact .inr hlog

/-- What is known of a connection to a file. -/
theorem connect_eq_ok {o : Opening} {c : Connection} (h : d.connect o = .ok (c, d'))
    (hc : c.file? = some place) :
    ¬ (o.system ≠ memorySystem ∧ (systems.lookup o.system).isNone) ∧ isInMemory o = false ∧
      c = .ofOpening o place ∧
      (!place.isEmpty && Nat.ble (pathLength place) maxPathLength) = true := by
  obtain ⟨hsystem, ⟨-, rfl, -⟩ | ⟨hfile, found, hfound, rfl, -⟩⟩ := connect_cases h
  · cases hc
  · obtain rfl : found = place := Option.some.inj hc
    rw [placeOf?] at hfound
    exact ⟨hsystem, hfile, rfl, (Option.filter_eq_some_iff.1 hfound).2⟩

/-- What is known of a store whose tables are in a file. -/
theorem setUp_eq_ok {c : Connection} {store : Store}
    (h : d.setUp c = .ok (store, .file place logged, d')) :
    c.file? = some place ∧ store = { tables := store.tables, readOnly := c.readOnly } ∧
      ¬ (logged ∧ c.canLog = false ∧ c.immutable = false) ∧
      d'.root.lookup place = some (.file (.database store.tables logged)) := by
  rw [Disk.setUp] at h
  split at h
  · split at h <;> cases h
  next found hc =>
  split at h
  · next bytes hbytes =>
    -- a new database is not logged
    split at h
    · cases h
    split at h
    · cases h
    next hwrite =>
    split at h
    · cases h
      exact ⟨hc, by simp [hwrite], by simp, lookup_useDatabase hbytes _ _ _⟩
    · cases h
  · next tables logged' hdatabase =>
    split at h
    · cases h
    next husable =>
    cases h
    refine ⟨hc, rfl, husable, ?_⟩
    split
    · exact hdatabase
    · exact lookup_useDatabase hdatabase _ _ _
  · cases h

/-- A store in memory is a new one, and its connection is to no file. -/
theorem setUp_memory_eq_ok {c : Connection} {store : Store}
    (h : d.setUp c = .ok (store, .memory, d')) :
    c.file? = none ∧ store = { inMemory := true } := by
  rw [Disk.setUp] at h
  split at h
  · next hc =>
    split at h
    · cases h
    · cases h
      exact ⟨hc, rfl⟩
  split at h
  · split_ifs at h
    cases h
  · split at h <;> cases h
  · cases h

/-- The parts of an opening that succeeds: the address is read, its file is made if it is missing,
and then there is a connection by which the tables are set up. -/
theorem openDatabase_eq_ok {address : String} {store : Store} {stored : Place}
    (h : d.openDatabase address = (.ok (store, stored), d')) :
    ∃ a o c d₁ d₂, Address.parse? address = .ok a ∧ a.opening a.creates = .ok o ∧
      (d₁ = d ∨ d.createDatabase a = (.ok (), d₁)) ∧ d₁.connect o = .ok (c, d₂) ∧
      d₂.setUp c = .ok (store, stored, d') := by
  rw [Disk.openDatabase] at h
  split at h
  · cases h
  next a hparse =>
  dsimp only at h
  split at h
  · cases h
  next d₁ hmade =>
  have hstart : d₁ = d ∨ d.createDatabase a = (.ok (), d₁) := by
    split at hmade
    · cases hmade
      exact .inl rfl
    · exact .inr hmade
  split at h
  · cases h
  next c d₂ hconnect =>
  obtain ⟨o, hopening, hconnect⟩ := bind_eq_ok hconnect
  split at h
  · cases h
  next hsetUp =>
  cases h
  exact ⟨a, o, c, d₁, d₂, hparse, hopening, hstart, hconnect, hsetUp⟩

/-- **What opening a library shows**, if its address is a path. -/
theorem leads_of_openDatabase {address : String} {store : Store}
    (h : d.openDatabase address = (.ok (store, .file place logged), d'))
    (hp : path? address = some p) :
    ∃ c, Leads address p place logged c ∧
      store = { tables := store.tables, readOnly := c.readOnly } ∧
      d'.root.lookup place = some (.file (.database store.tables logged)) := by
  obtain ⟨a, o, hparse, hopening, hpath, hname⟩ := exists_opening_of_path? hp
  obtain ⟨a', o', c, d₁, d₂, hparse', hopening', -, hconnect, hsetUp⟩ := openDatabase_eq_ok h
  obtain rfl : a = a' := Except.ok.inj (hparse.symm.trans hparse')
  obtain rfl : o = o' := Except.ok.inj (hopening.symm.trans hopening')
  obtain ⟨hc, hstore, husable, hfile⟩ := setUp_eq_ok hsetUp
  obtain ⟨hsystem, hmemory, rfl, hfits⟩ := connect_eq_ok hconnect hc
  exact ⟨_, ⟨⟨a, o, hparse, hopening, hpath, hname, hsystem, hmemory, rfl⟩, hfits, husable⟩, hstore,
    hfile⟩

/-! ## A library in one file -/

/-- A disk with one file on it, and no folder but the one in which relative paths start. -/
def oneFile (content : Content) : Disk Content :=
  ⟨.cons [0x77] (.folder (.cons [0x78] (.file content) .nil)) .nil, [[0x77]]⟩

/-- The path of that file, from where relative paths start. -/
def onePath : Path := ⟨[0x78]⟩

/-- The place of that file. -/
def onePlace : List Bytes := [[0x77], [0x78]]

theorem ofString_onePath : Path.ofString "x" = onePath := by
  decide +kernel

theorem parse?_onePath : Address.parse? (address (some onePath)) = .ok { name := "x" } := by
  rw [← ofString_onePath]
  exact Address.parse?_of_isSpelled (by decide +kernel)

theorem opening_onePath : ({ name := "x" } : Address).opening false =
    .ok { path := onePath, access := .write } := by
  cbv

theorem path?_onePath : path? (address (some onePath)) = some onePath := by
  simp [path?, parse?_onePath, opening_onePath, ofString_onePath, Except.toOption]

theorem locate_oneFile (content : Content) :
    (oneFile content).locate true onePath = .ok onePlace := by
  cbv

theorem connect_oneFile (content : Content) :
    (oneFile content).connect { path := onePath, access := .write } =
      .ok ({ file? := some onePlace }, oneFile content) := by
  have hplace : placeOf? (oneFile content) onePath = some onePlace := by cbv
  have hmemory : isInMemory { path := onePath, access := .write } = false := by decide +kernel
  rw [Disk.connect, hplace, hmemory]
  rfl

/-- The library in that file, which has empty tables if nothing is in the file. -/
theorem openDatabase_oneFile {content : Content}
    (hcontent : content = .bytes [] ∧ tables = {} ∨ content = .database tables false) :
    (oneFile content).openDatabase (address (some onePath)) =
      (.ok ({ tables }, .file onePlace false), oneFile (.database tables false)) := by
  have hthere : (oneFile content).isThere onePath = true := by
    rw [isThere, node, locate_oneFile]
    rfl
  rw [Disk.openDatabase, parse?_onePath]
  dsimp only
  rw [ofString_onePath, hthere, Bool.or_true, if_pos rfl, opening_onePath]
  dsimp only [Except.bind]
  rw [connect_oneFile]
  rcases hcontent with ⟨rfl, rfl⟩ | rfl <;> rfl

end Disk
end Fonoteca
