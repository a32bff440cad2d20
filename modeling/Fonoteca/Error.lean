import Fonoteca.Path
import Fonoteca.Store.Error

/-!
# Failures of the library

Whatever fails in the library is reported as a `LibraryError`.  `LibraryError.inContext` says what
was being done; it may be applied any number of times, and the text reads from the outside in.
-/

set_option autoImplicit false

namespace Fonoteca

/-- Why the library refuses a request. -/
inductive LibraryError where
  /-- The store refuses it. -/
  | store (cause : StoreError)
  /-- The tags of a file cannot be read. -/
  | metadata (path : Path) (reason : String)
  /-- What was asked for is not there. -/
  | notFound (what : String)
  /-- The settings or the environment do not allow it. -/
  | configuration (reason : String)
  /-- A stage of a scan broke off. -/
  | task (reason : String)
  /-- The failure of a part, with what was being done. -/
  | inContext (context : String) (cause : LibraryError)
  deriving DecidableEq, Repr

namespace LibraryError

/-- The text of a failure. -/
def message : LibraryError → String
  | .store cause => "Store error: " ++ cause.message
  | .metadata path reason => "Metadata error for " ++ path.display ++ ": " ++ reason
  | .notFound what => "Not found: " ++ what
  | .configuration reason => "Configuration error: " ++ reason
  | .task reason => "Task failed: " ++ reason
  | .inContext context cause => context ++ ": " ++ cause.message

/-- The texts of what caused a failure. -/
def sources : LibraryError → List String
  | .store cause => cause.message :: cause.sources
  | .inContext _ cause => cause.message :: cause.sources
  | _ => []

end LibraryError
end Fonoteca
