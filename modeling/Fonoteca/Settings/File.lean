import Fonoteca.Settings.Basic
import Fonoteca.Store.Location

/-!
# The file with the settings

Settings are read leniently: a file that is missing, or that cannot be understood, stands for the
settings that the program starts with.  They are saved in one step: the new document is written to a
file beside the old one, which then takes its place, so that a failure leaves the old one as it was.
-/

set_option autoImplicit false

namespace Fonoteca

/-- Why settings cannot be saved. -/
inductive SettingsError where
  /-- There is no place for them. -/
  | noFolder
  /-- Their folder cannot be made. -/
  | makeFolder (folder : Path) (e : DiskError)
  /-- One of their paths is not text. -/
  | notText
  /-- The new document cannot be written. -/
  | write (file : Path) (e : DiskError)
  /-- The new document cannot take the place of the old one. -/
  | replace (source target : Path) (e : DiskError)
  deriving DecidableEq, Repr

/-- The text of a failure. -/
def SettingsError.message : SettingsError → String
  | .noFolder => "Could not determine config directory"
  | .makeFolder folder e =>
    "Failed to create config directory " ++ folder.display ++ ": " ++ e.message
  | .notText => "Failed to serialize config: path contains invalid UTF-8 characters"
  | .write file e => "Failed to write config to " ++ file.display ++ ": " ++ e.message
  | .replace source target e =>
    "Failed to rename temp file " ++ source.display ++ " to " ++ target.display ++ ": " ++ e.message

namespace Disk

/-- The settings in a file. -/
def loadSettings (d : Disk Content) (p : Path) : Settings :=
  match d.read p with
  | .ok (.bytes bs) => ((Text.Utf8.decode? bs).bind Settings.parse?).getD {}
  | _ => {}

/-- The file beside a file of settings in which the new document is written. -/
def draftPath (p : Path) : Path :=
  p.withExtension "toml.tmp"

/-- Makes the folder of a file. -/
def makeParent (d : Disk Content) (p : Path) : Except SettingsError Unit × Disk Content :=
  match p.parent? with
  | none => (.ok (), d)
  | some folder => match d.makeFolders folder with
    | (.ok (), d) => (.ok (), d)
    | (.error e, d) => (.error (.makeFolder folder e), d)

/-- Writes a document beside a file and puts it in place of that file. -/
def replaceFile (d : Disk Content) (p : Path) (text : String) :
    Except SettingsError Unit × Disk Content :=
  match d.write (draftPath p) (.bytes (Text.Utf8.encode text)) with
  | .error e => (.error (.write (draftPath p) e), d)
  | .ok d => match d.rename (draftPath p) p with
    | .error e => (.error (.replace (draftPath p) p e), d)
    | .ok d => (.ok (), d)

/-- Saves settings in a file. -/
def saveSettings (d : Disk Content) (s : Settings) (p : Path) :
    Except SettingsError Unit × Disk Content :=
  match d.makeParent p with
  | (.error e, d) => (.error e, d)
  | (.ok (), d) => match s.render with
    | none => (.error .notText, d)
    | some text => d.replaceFile p text

end Disk
end Fonoteca
