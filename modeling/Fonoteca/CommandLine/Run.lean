import Fonoteca.CommandLine.Action
import Fonoteca.CommandLine.Reader

/-!
# Running a command

A command finds the settings and the library on a disk, and leaves both there for the next one.

* `Report` is what a command prints and why it fails, if it does.
* `Invocation.run` runs a command, `CommandLine.run` the command that some arguments spell.
-/

set_option autoImplicit false

namespace Fonoteca

/-- What comes of a command. -/
structure Report where
  out : String := ""
  remarks : String := ""
  failure : Option CommandFailure := none
  deriving DecidableEq, Repr, Inhabited

namespace Report

/-- The number with which the program ends. -/
def exitCode (r : Report) : Nat :=
  if r.failure.isSome then 1 else 0

/-- The report of a command that fails before it prints anything. -/
def failed (e : CommandFailure) : Report :=
  { failure := some e }

/-- The report of an action that has ended on a stage. -/
def ofStage (result : Except CommandFailure Unit) (s : Stage) : Report where
  out := s.out
  remarks := s.remarks
  failure := match result with
    | .ok () => none
    | .error e => some e

end Report

/-! ## The library on a disk -/

namespace Disk

/-- Makes the folder for the file of the library, if that file is to lie in a folder. -/
def makeDatabaseFolder (d : Disk Content) (file : Path) :
    Except CommandFailure Unit × Disk Content :=
  match file.parent?.filter (·.bytes ≠ []) with
  | none => (.ok (), d)
  | some folder =>
    match d.makeFolders folder with
    | (.ok (), d) => (.ok (), d)
    | (.error e, d) => (.error (.noDatabaseFolder folder e), d)

/-- Runs an action on the library in a file, and keeps what it has changed even if it fails.  The
action sees the disk as it is while the library is open. -/
def withLibrary (d : Disk Content) (file : Path) (act : Disk Content → ActionM Unit) :
    Report × Disk Content :=
  match d.makeDatabaseFolder file with
  | (.error e, d) => (.failed e, d)
  | (.ok (), d) =>
    match d.openDatabase (Database.address (some file)) with
    | (.error e, d) => (.failed (.notOpened file e), d)
    | (.ok (store, place), d) =>
      let (result, stage) := (act d).run { store }
      (.ofStage result stage, d.keepDatabase place stage.store)

end Disk

/-! ## Commands -/

/-- Why a command cannot begin, whatever the library holds. -/
def LibraryCommand.obstacle (d : Disk Content) (folder : Path) :
    LibraryCommand → Option CommandFailure
  | .scan root _ =>
    let root := root.getD folder
    if d.isFolder root then none else some (.notFolder root)
  | _ => none

/-- Runs a command on the library in a file. -/
def LibraryCommand.run (c : LibraryCommand) (s : Settings) (e : Environment) (file : Path)
    (d : Disk Content) : Report × Disk Content :=
  let folder := s.libraryRoot e
  match c.obstacle d folder with
  | some failure => (.failed failure, d)
  | none => d.withLibrary file fun d => c.action d e.plan folder s.extension

/-- The settings with everything filled in that they leave open. -/
def Settings.inForce (s : Settings) (e : Environment) (file : Path) : Settings :=
  { s with root := some (s.libraryRoot e), database := some file }

/-- Shows settings, and saves them if asked to. -/
def Settings.report (s : Settings) (target : Path) (save : Bool) (d : Disk Content) :
    Report × Disk Content :=
  match s.render with
  | none => (.failed .settingsNotText, d)
  | some text =>
    if save then
      match d.saveSettings s target with
      | (.ok (), d) => ({ out := text ++ "\nSaved to " ++ target.display ++ "\n" }, d)
      | (.error e, d) => ({ out := text, failure := some (.settingsNotSaved e) }, d)
    else ({ out := text }, d)

/-- Runs a command. -/
def Invocation.run (i : Invocation) (e : Environment) (d : Disk Content) :
    Report × Disk Content :=
  let s := d.loadSettings e.settingsPath
  let file := i.database.getD (s.databasePath e)
  match i.command with
  | .library c => c.run s e file d
  | .settings save => (s.inForce e file).report e.settingsPath save d

namespace CommandLine

/-- Runs the command that some arguments spell. -/
def run (e : Environment) (arguments : List String) (d : Disk Content) :
    Except Usage (Report × Disk Content) :=
  (Invocation.read e.database arguments).map fun i => i.run e d

end CommandLine
end Fonoteca
