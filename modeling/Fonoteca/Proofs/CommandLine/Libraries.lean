import Fonoteca.CommandLine.Run
import Fonoteca.Proofs.Disk.Contents
import Fonoteca.Proofs.Store.Location
import Fonoteca.Proofs.Store.Resolving

/-!
# The libraries on a disk

Each command opens one library, which may be a new one, and leaves it in its file.  So a property
of empty tables that every command keeps is one of all libraries that commands have made, whatever
files they are in.

* `Disk.Libraries` says that the tables of all libraries on a disk have a property.  Opening a
  database keeps it, and opens tables that have it (`Libraries.openDatabase`); putting tables back
  keeps it (`Libraries.keepDatabase`), and so does saving settings (`Libraries.saveSettings`).
* `Disk.tablesIn?` are the tables that a command finds.
* `Disk.Commanded` are the disks that come about by commands from one without a library, while other
  files come and go.
* **`Disk.Commanded.libraries`** : what every command keeps holds of all their libraries.
-/

set_option autoImplicit false

namespace Fonoteca

variable {P Q : Tables → Prop}

/-- The tables that a file holds have a property, if it holds any. -/
def Content.Keeps (P : Tables → Prop) : Content → Prop
  | .bytes _ => True
  | .database tables _ => P tables

/-- The tables of all libraries on a disk have a property. -/
def Disk.Libraries (P : Tables → Prop) (d : Disk Content) : Prop :=
  d.Holds (Content.Keeps P)

namespace Disk

open Database

variable {d d' : Disk Content}

namespace Libraries

theorem imp (himp : ∀ t, P t → Q t) (h : d.Libraries P) : d.Libraries Q := by
  refine Entries.Holds.imp (fun content => ?_) h
  cases content with
  | bytes _ => exact id
  | database tables _ => exact himp tables

/-- The tables in a file of such a disk. -/
theorem of_lookup (h : d.Libraries P) {place : List Bytes} {tables : Tables} {logged : Bool}
    (hd : d.root.lookup place = some (.file (.database tables logged))) : P tables :=
  Entries.Holds.lookup h hd

theorem putBytes (h : d.Libraries P) (place : List Bytes) (bytes : Bytes) :
    (d.putAt place (.file (.bytes bytes))).Libraries P :=
  h.putAt (n := .file (.bytes bytes)) trivial place

theorem putTables (h : d.Libraries P) {tables : Tables} (hP : P tables) (place : List Bytes)
    (logged : Bool) : (d.putAt place (.file (.database tables logged))).Libraries P :=
  h.putAt (n := .file (.database tables logged)) hP place

/-! ## Opening -/

theorem connect (h : d.Libraries P) {o : Opening} {c : Connection}
    (hd : d.connect o = .ok (c, d')) : d'.Libraries P := by
  obtain ⟨-, ⟨-, -, rfl⟩ | ⟨-, names, -, -, ⟨-, rfl⟩ | ⟨-, -, -, rfl⟩⟩⟩ := connect_cases hd
  · exact h
  · exact h
  · exact h.putBytes names []

theorem startLog (hempty : P {}) (h : d.Libraries P) {c : Connection}
    (hd : d.startLog c = .ok d') : d'.Libraries P := by
  obtain rfl | ⟨names, content, tables, -, hfile, hcontent, rfl⟩ := startLog_cases hd
  · exact h
  refine h.putTables ?_ names true
  rcases hcontent with ⟨bytes, -, rfl⟩ | rfl
  · exact hempty
  · exact h.of_lookup hfile

theorem createDatabase (hempty : P {}) (h : d.Libraries P) (a : Address) :
    (d.createDatabase a).2.Libraries P := by
  rcases createDatabase_cases d a with hsame | ⟨o, c, d₁, hconnect, hconnected | hlog⟩
  · rwa [hsame]
  · rw [hconnected]
    exact h.connect hconnect
  · exact (h.connect hconnect).startLog hempty hlog

theorem useDatabase (h : d.Libraries P) {tables : Tables} (hP : P tables) (place : List Bytes)
    (logged shared : Bool) : (d.useDatabase place tables logged shared).Libraries P := by
  -- the files beside it hold no tables
  exact useDatabase_induct (P := Libraries P) (h.putTables hP place logged) fun _ _ _ hd =>
    hd.putBytes _ []

theorem setUp (hempty : P {}) (h : d.Libraries P) {c : Connection} {store : Store} {place : Place}
    (hd : d.setUp c = .ok (store, place, d')) : d'.Libraries P ∧ P store.tables := by
  rw [Disk.setUp] at hd
  split at hd
  · split at hd
    · cases hd
    · cases hd
      exact ⟨h, hempty⟩
  split at hd
  · split at hd
    · cases hd
    split at hd
    · cases hd
    split at hd
    · cases hd
      exact ⟨h.useDatabase hempty _ _ _, hempty⟩
    · cases hd
  · next tables logged htables =>
    have hP := h.of_lookup htables
    split at hd
    · cases hd
    · cases hd
      refine ⟨?_, hP⟩
      split
      · exact h
      · exact h.useDatabase hP _ _ _
  · cases hd

/-- **Opening a database** keeps the property, and opens tables that have it. -/
theorem openDatabase (hempty : P {}) (h : d.Libraries P) (address : String) :
    (d.openDatabase address).2.Libraries P ∧
      ∀ store place, (d.openDatabase address).1 = .ok (store, place) → P store.tables := by
  rw [Disk.openDatabase]
  split
  · exact ⟨h, fun _ _ hopened => by cases hopened⟩
  next a _ =>
  have hmade : (if a.inMemory || d.isThere (Path.ofString a.name) then (.ok (), d)
      else d.createDatabase a).2.Libraries P := by
    split
    · exact h
    · exact h.createDatabase hempty a
  dsimp only
  split
  · next heq =>
    rw [heq] at hmade
    exact ⟨hmade, fun _ _ hopened => by cases hopened⟩
  next heq =>
  rw [heq] at hmade
  split
  · exact ⟨hmade, fun _ _ hopened => by cases hopened⟩
  next hconnect =>
  obtain ⟨o, -, hconnect⟩ := bind_eq_ok hconnect
  have hconnected := Libraries.connect hmade hconnect
  split
  · exact ⟨hconnected, fun _ _ hopened => by cases hopened⟩
  next hsetUp =>
  obtain ⟨hd, hP⟩ := hconnected.setUp hempty hsetUp
  refine ⟨hd, ?_⟩
  rintro _ _ ⟨⟩
  exact hP

/-! ## Keeping -/

theorem keepDatabase (h : d.Libraries P) {store : Store} (hP : P store.tables) (place : Place) :
    (d.keepDatabase place store).Libraries P := by
  cases place with
  | memory => exact h
  | file place logged =>
  rw [Disk.keepDatabase]
  split
  · exact h
  have hroot : ∀ endings : List String, ∀ root : Entries Content, root.Holds (Content.Keeps P) →
      (endings.foldl (fun root ending => root.eraseAt (beside place ending)) root).Holds
        (Content.Keeps P) := by
    intro endings
    induction endings with
    | nil => exact fun _ h => h
    | cons ending endings ih => exact fun _ h => ih _ h.eraseAt
  exact putTables (d := { d with root := _ }) (hroot _ _ h) hP place logged

theorem settle (h : d.Libraries P) {store : Store} (hP : P store.tables) (place : Place) :
    (d.settle place store).Libraries P := by
  rw [Disk.settle]
  split
  · exact h.keepDatabase hP place
  · exact h

theorem afterRequest (h : d.Libraries P) {before after : Store} (hP : P after.tables)
    (place : Place) : (d.afterRequest place before after).Libraries P := by
  rw [Disk.afterRequest]
  split
  · exact h
  · exact h.keepDatabase hP place

theorem saveSettings (h : d.Libraries P) (s : Settings) (p : Path) :
    (d.saveSettings s p).2.Libraries P := by
  have hparent : (d.makeParent p).2.Libraries P := by
    rw [Disk.makeParent]
    split
    · exact h
    · next folder _ =>
      have hfolders := h.makeFolders folder
      split <;> next heq =>
        rw [heq] at hfolders
        exact hfolders
  rw [Disk.saveSettings]
  split
  · next heq =>
    rw [heq] at hparent
    exact hparent
  next heq =>
  rw [heq] at hparent
  split
  · exact hparent
  rw [replaceFile]
  split
  · exact hparent
  next hwrite =>
  have hwritten := Holds.write hparent (by trivial) hwrite
  split
  · exact hwritten
  · next hrename => exact hwritten.rename hrename

end Libraries

/-! ## Commands -/

/-- The tables that a command finds in the library of a file, unless it cannot open it. -/
def tablesIn? (d : Disk Content) (file : Path) : Option Tables :=
  match d.makeDatabaseFolder file with
  | (.error _, _) => none
  | (.ok (), d) =>
    (d.openDatabase (address (some file))).1.toOption.map fun opened => opened.1.tables

namespace Libraries

theorem makeDatabaseFolder (h : d.Libraries P) (file : Path) :
    (d.makeDatabaseFolder file).2.Libraries P := by
  rw [Disk.makeDatabaseFolder]
  split
  · exact h
  · next folder _ =>
    have hfolders := h.makeFolders folder
    split <;> next heq =>
      rw [heq] at hfolders
      exact hfolders

/-- **Running an action on a library** keeps a property of tables, if the action does on the tables
that it finds. -/
theorem withLibrary (hempty : P {}) (h : d.Libraries P) {file : Path}
    {act : Disk Content → ActionM Unit}
    (hact : ∀ d' store, d.tablesIn? file = some store.tables → P store.tables →
      P ((act d').run { store }).2.store.tables) :
    (d.withLibrary file act).2.Libraries P := by
  have hfolder := h.makeDatabaseFolder file
  rw [Disk.withLibrary]
  rw [tablesIn?] at hact
  split
  · next heq =>
    rw [heq] at hfolder
    exact hfolder
  next d₁ heq =>
  rw [heq] at hfolder hact
  obtain ⟨hopened, hP⟩ := hfolder.openDatabase hempty (address (some file))
  split
  · next heq =>
    rw [heq] at hopened
    exact hopened
  next store place d₂ heq =>
  rw [heq] at hopened hP
  have hkept := hact d₂ store (by dsimp only; rw [heq]; rfl) (hP store place rfl)
  exact hopened.keepDatabase hkept place

/-- A command keeps a property of tables if what it does to the tables that it finds does. -/
theorem runCommand (hempty : P {}) (h : d.Libraries P) {c : LibraryCommand} {s : Settings}
    {e : Environment} {file : Path}
    (hact : ∀ disk store, d.tablesIn? file = some store.tables → P store.tables →
      P ((c.action disk e.plan (s.libraryRoot e) s.extension).run { store }).2.store.tables) :
    (c.run s e file d).2.Libraries P := by
  rw [LibraryCommand.run]
  split
  · exact h
  · exact h.withLibrary hempty hact

theorem report (h : d.Libraries P) (s : Settings) (target : Path) (save : Bool) :
    (s.report target save d).2.Libraries P := by
  rw [Settings.report]
  split
  · exact h
  split
  · have hsaved := h.saveSettings s target
    split <;> next heq =>
      rw [heq] at hsaved
      exact hsaved
  · exact h

end Libraries
end Disk

/-- The command on a library that an invocation asks for, and the tables that it finds. -/
def Invocation.target? (i : Invocation) (e : Environment) (d : Disk Content) :
    Option (LibraryCommand × Tables) :=
  match i.command with
  | .library c =>
    (d.tablesIn? (i.database.getD ((d.loadSettings e.settingsPath).databasePath e))).map (c, ·)
  | .settings _ => none

/-- A command keeps a property of the tables, on whatever disk and whatever the settings are. -/
def LibraryCommand.Maintains (c : LibraryCommand) (P : Tables → Prop) (t : Tables) : Prop :=
  ∀ disk plan folder ending store, store.tables = t →
    P ((c.action disk plan folder ending).run { store }).2.store.tables

namespace Disk

variable {admits : LibraryCommand → Tables → Prop} {d d' : Disk Content}

/-- The disks that come about by commands from one without a library.  Between two commands other
files may come and go, and files with libraries may be moved, copied and deleted.  A command may be
run if it is admitted on the tables that it finds. -/
inductive Commanded (admits : LibraryCommand → Tables → Prop) : Disk Content → Prop
  | new {d : Disk Content} (hnew : d.Libraries fun _ => False) : Commanded admits d
  | run {d : Disk Content} (h : Commanded admits d) (e : Environment) (i : Invocation)
      (hallowed : ∀ c t, i.target? e d = some (c, t) → admits c t) :
      Commanded admits (i.run e d).2
  | changed {d d' : Disk Content} (h : Commanded admits d)
      (hfiles : ∀ P : Tables → Prop, d.Libraries P → d'.Libraries P) : Commanded admits d'

theorem Libraries.run (hempty : P {}) (h : d.Libraries P) {e : Environment} {i : Invocation}
    (hkeep : ∀ c t, i.target? e d = some (c, t) → P t → c.Maintains P t) :
    (i.run e d).2.Libraries P := by
  rw [Invocation.run]
  rw [Invocation.target?] at hkeep
  split
  · next c hc =>
    rw [hc] at hkeep
    refine h.runCommand hempty fun disk store hstore hP => ?_
    exact hkeep c store.tables (by dsimp only; rw [hstore]; rfl) hP _ _ _ _ store rfl
  · exact h.report _ _ _

/-- **What every admitted command keeps** holds of all libraries on the disk. -/
theorem Commanded.libraries (hempty : P {})
    (hkeep : ∀ c t, admits c t → P t → c.Maintains P t) (h : d.Commanded admits) :
    d.Libraries P := by
  induction h with
  | new hnew => exact hnew.imp fun _ => False.elim
  | run _ e i hallowed ih => exact ih.run hempty fun c t ht => hkeep c t (hallowed c t ht)
  | changed _ hfiles ih => exact hfiles P ih

/-- The arguments of the command line are run as the command that they spell. -/
theorem Commanded.commandLine (h : d.Commanded admits) {e : Environment} {arguments : List String}
    {report : Report} (hrun : CommandLine.run e arguments d = .ok (report, d'))
    (hallowed : ∀ i, Invocation.read e.database arguments = .ok i →
      ∀ c t, i.target? e d = some (c, t) → admits c t) : d'.Commanded admits := by
  rw [CommandLine.run] at hrun
  cases hread : Invocation.read e.database arguments with
  | error usage =>
    rw [hread] at hrun
    cases hrun
  | ok i =>
    rw [hread] at hrun
    have hd : (i.run e d).2 = d' := congrArg Prod.snd (Except.ok.inj hrun)
    exact hd ▸ h.run e i (hallowed i hread)

/-! ## Commands on the library of one file -/

section

open Database

variable {content : Content} {tables : Tables} {c : LibraryCommand}
  {admits : LibraryCommand → Tables → Prop}

/-- A command on the library in that file. -/
def oneFileCommand (c : LibraryCommand) : Invocation :=
  { database := some onePath, command := .library c }

theorem target?_oneFile
    (hcontent : content = .bytes [] ∧ tables = {} ∨ content = .database tables false)
    (c : LibraryCommand) :
    (oneFileCommand c).target? { home := ⟨[]⟩ } (oneFile content) = some (c, tables) := by
  have hfolder : (oneFile content).makeDatabaseFolder onePath = (.ok (), oneFile content) := by
    cbv
  rw [Invocation.target?, oneFileCommand]
  dsimp only
  rw [Option.getD_some, tablesIn?, hfolder]
  dsimp only
  rw [openDatabase_oneFile hcontent]
  rfl

/-- What a command does to the tables is what it leaves in the file. -/
theorem run_oneFile
    (hcontent : content = .bytes [] ∧ tables = {} ∨ content = .database tables false)
    (hc : ∀ d folder, c.obstacle d folder = none) {u : Tables}
    (hact : ∀ disk plan folder ending,
      ((c.action disk plan folder ending).run { store := { tables } }).2.store = { tables := u }) :
    ((oneFileCommand c).run { home := ⟨[]⟩ } (oneFile content)).2 =
      oneFile (.database u false) := by
  have hfolder : (oneFile content).makeDatabaseFolder onePath = (.ok (), oneFile content) := by
    cbv
  rw [Invocation.run, oneFileCommand]
  dsimp only
  rw [LibraryCommand.run, hc]
  dsimp only
  rw [withLibrary, Option.getD_some, hfolder]
  dsimp only
  rw [openDatabase_oneFile hcontent]
  change (oneFile (.database tables false)).keepDatabase (.file onePlace false)
    ((c.action _ _ _ _).run { store := { tables } }).2.store = _
  rw [hact]
  rfl

/-- An empty file is no library. -/
theorem Commanded.blankFile : (oneFile (.bytes [])).Commanded admits :=
  .new ⟨⟨trivial, trivial⟩, trivial⟩

/-- A command makes one library in the file of another. -/
theorem Commanded.runOneFile (h : (oneFile content).Commanded admits)
    (hcontent : content = .bytes [] ∧ tables = {} ∨ content = .database tables false)
    (hc : ∀ d folder, c.obstacle d folder = none) (hallowed : admits c tables) {u : Tables}
    (hact : ∀ disk plan folder ending,
      ((c.action disk plan folder ending).run { store := { tables } }).2.store = { tables := u }) :
    (oneFile (.database u false)).Commanded admits := by
  rw [← run_oneFile hcontent hc hact]
  refine h.run _ _ fun c' t ht => ?_
  rw [target?_oneFile hcontent] at ht
  cases ht
  exact hallowed

end

end Disk
end Fonoteca
