import Fonoteca.Disk.Discovery
import Fonoteca.Store.Search
import Fonoteca.Toml.Parser

/-!
# Settings

The settings say which folder to scan, which files to look for, and where the library is kept.  They
are written as a TOML document with the sections `library` and `database`; everything in it is
optional, and names that mean nothing are passed over.

* `Settings` are the settings, `Settings.ofTable?` reads them from a document.
* `Settings.render` writes them as a document, if their paths are text.
* `Environment` says what the program is run in: where the user's folders are, to which
  `Settings.libraryRoot` and `Settings.databasePath` fall back, and how the database plans.
-/

set_option autoImplicit false

namespace Fonoteca

/-- The settings. -/
structure Settings where
  root : Option Path := none
  extension : String := defaultExtension
  database : Option Path := none
  deriving DecidableEq, Repr, Inhabited

namespace Settings

/-! ## Reading -/

open Toml (Table)

/-- The text that a value has to be. -/
def textOf? : Toml.Value → Option String
  | .text s => some s
  | _ => none

/-- The text that an optional value has to be, if there is one. -/
def optionalText? (v : Option Toml.Value) : Option (Option String) :=
  v.mapM textOf?

/-- The settings of the library from the values of `root` and `extension`. -/
def withLibrary (s : Settings) (root extension : Option Toml.Value) : Option Settings := do
  let root ← optionalText? root
  let extension ← optionalText? extension
  return { s with root := root.map Path.ofString, extension := extension.getD s.extension }

/-- The settings of the database from the value of `path`. -/
def withDatabase (s : Settings) (path : Option Toml.Value) : Option Settings := do
  let path ← optionalText? path
  return { s with database := path.map Path.ofString }

/-- The values of some names in a section, which may also be given as a list of values in the order
of the names. -/
def sectionValues (names : List String) : Toml.Value → Option (List (Option Toml.Value))
  | .table _ t => some (names.map (Table.find? t))
  | .closed t => some (names.map (Table.find? t))
  | .array items => some (names.zipIdx.map fun n => items[n.2]?)
  | .tables items => some (names.zipIdx.map fun n => (items[n.2]?).map Toml.Value.closed)
  | .date => some (names.map fun _ => none)
  | _ => none

/-- The settings with those of the library. -/
def addLibrary (s : Settings) : Option Toml.Value → Option Settings
  | none => some s
  | some v => do
    match ← sectionValues ["root", "extension"] v with
    | [root, extension] => s.withLibrary root extension
    | _ => none

/-- The settings with those of the database. -/
def addDatabase (s : Settings) : Option Toml.Value → Option Settings
  | none => some s
  | some v => do
    match ← sectionValues ["path"] v with
    | [path] => s.withDatabase path
    | _ => none

/-- The settings in a document, if all of its values are as they have to be. -/
def ofTable? (t : Table) : Option Settings := do
  let s ← addLibrary {} (t.find? "library")
  s.addDatabase (t.find? "database")

/-- The settings that a text spells. -/
def parse? (text : String) : Option Settings :=
  (Toml.parse? text).bind ofTable?

/-! ## Writing -/

/-- One line of a section. -/
def line (name value : String) : String :=
  name ++ " = " ++ Toml.write value ++ "\n"

/-- The line of an optional path; there is no line if the path is missing, and no document if it is
not text. -/
def pathLine (name : String) : Option Path → Option String
  | none => some ""
  | some p => p.toString?.map (line name)

/-- The document of the settings, if their paths are text. -/
def render (s : Settings) : Option String := do
  let root ← pathLine "root" s.root
  let database ← pathLine "path" s.database
  return "[library]\n" ++ root ++ line "extension" s.extension ++ "\n[database]\n" ++ database

end Settings

/-! ## The environment -/

/-- What a command is run in: the folders of the user, and the database. -/
structure Environment where
  /-- The user's own folder. -/
  home : Path
  /-- The folder for settings, if it is a place of its own. -/
  configHome : Option Path := none
  /-- The folder for files that can be made anew, if it is a place of its own. -/
  cacheHome : Option Path := none
  /-- Where the library is kept, if the environment says so. -/
  database : Option Path := none
  /-- How the database goes about a search. -/
  plan : Plan := .sparing
  deriving DecidableEq, Repr, Inhabited

namespace Environment

/-- The name of the program in the folders that it shares with others. -/
def appName : String := "rolas"

/-- A folder of its own, if it is given from the root of the tree on. -/
def ownFolder (p : Option Path) (otherwise : Path) : Path :=
  (p.filter Path.isAbsolute).getD otherwise

/-- The file with the settings. -/
def settingsPath (e : Environment) : Path :=
  let folder := ownFolder e.configHome (e.home.joinString ".config")
  (folder.joinString appName).joinString "config.toml"

/-- The folder to scan unless the settings say otherwise. -/
def musicFolder (e : Environment) : Path :=
  e.home.joinString "Music"

/-- The file of the library unless the settings say otherwise. -/
def databasePath (e : Environment) : Path :=
  let folder := ownFolder e.cacheHome (e.home.joinString ".cache")
  (folder.joinString appName).joinString "rolas.db"

end Environment

namespace Settings

/-- The folder to scan. -/
def libraryRoot (s : Settings) (e : Environment) : Path :=
  s.root.getD e.musicFolder

/-- The file of the library. -/
def databasePath (s : Settings) (e : Environment) : Path :=
  s.database.getD e.databasePath

end Settings
end Fonoteca
