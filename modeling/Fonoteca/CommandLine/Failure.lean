import Fonoteca.Error
import Fonoteca.Settings.File
import Fonoteca.Text.Quoted

/-!
# Failures of commands

Why a command fails after its arguments have been understood.

* `message` is the text of a failure, `sources` the texts of the failures that caused it, the
  nearest first.
-/

set_option autoImplicit false

namespace Fonoteca

/-- Why a command fails. -/
inductive CommandFailure where
  /-- The store refuses a request. -/
  | store (cause : StoreError)
  /-- The library refuses a request. -/
  | library (cause : LibraryError)
  /-- The place to scan is not a folder. -/
  | notFolder (place : Path)
  /-- There is a person of this name. -/
  | personExists (name : String) (id : Int)
  /-- There is a group of this name. -/
  | groupExists (name : String) (id : Int)
  /-- The folder for the file of the library cannot be made. -/
  | noDatabaseFolder (folder : Path) (cause : DiskError)
  /-- The file of the library cannot be opened. -/
  | notOpened (file : Path) (cause : StoreError)
  /-- A path in the settings is not text. -/
  | settingsNotText
  /-- The settings cannot be saved. -/
  | settingsNotSaved (cause : SettingsError)
  deriving DecidableEq, Repr

namespace CommandFailure

/-- Something that was asked for is not there. -/
def notFound (what : String) : CommandFailure :=
  .library (.notFound what)

/-- The text of a failure. -/
def message : CommandFailure → String
  | .store cause => cause.message
  | .library cause => cause.message
  | .notFolder place => place.display ++ " is not a directory"
  | .personExists name id =>
    "person " ++ Text.quoted name ++ " already exists (id " ++ toString id ++ ")"
  | .groupExists name id =>
    "group " ++ Text.quoted name ++ " already exists (id " ++ toString id ++ ")"
  | .noDatabaseFolder folder _ => "Failed to create database directory " ++ folder.display
  | .notOpened file _ => "Failed to open database " ++ file.display
  | .settingsNotText => "path contains invalid UTF-8 characters"
  | .settingsNotSaved cause => cause.message

/-- The texts of what caused a failure. -/
def sources : CommandFailure → List String
  | .store cause => cause.sources
  | .library cause => cause.sources
  | .noDatabaseFolder _ cause => [cause.message]
  | .notOpened _ cause => cause.message :: cause.sources
  | _ => []

end CommandFailure
end Fonoteca
