/-!
# What can go wrong in the store

The database below the store fails in its own terms (`Fault`).  The store classifies such a failure,
so that a caller can tell a duplicate from a broken reference and from a lost connection, and adds
failures of its own (`StoreError`).

* `StoreError.ofFault` is the classification.
* `message` is the text of a failure, `sources` the texts of the failures that caused it, the
  nearest first.
-/

set_option autoImplicit false

namespace Fonoteca

/-! ## Failures of the database -/

/-- Why the database refuses a request. -/
inductive Fault where
  /-- The connection broke. -/
  | disconnected (reason : String)
  /-- The store has been closed. -/
  | closed
  /-- No connection came free in time. -/
  | timedOut
  /-- A row that has to be there is not. -/
  | rowNotFound
  /-- Another row has these columns already. -/
  | notUnique (columns : String)
  /-- The row refers to one that is not there. -/
  | danglingReference
  /-- The column may not be empty. -/
  | missingValue (column : String)
  /-- The condition cannot be read beyond this token. -/
  | syntaxError (token : String)
  /-- The condition has places for more values than the database takes. -/
  | tooManyPlaces
  /-- The condition is higher as a tree than the database takes. -/
  | tooHigh
  /-- A pattern is longer than the database takes. -/
  | overlongPattern
  /-- There is no such table. -/
  | noTable (name : String)
  /-- The tables may only be read. -/
  | readOnly
  /-- The file of the database cannot be opened or made. -/
  | cannotOpen
  /-- The file of the database cannot be read. -/
  | unreadable
  /-- Files are to be reached in a way that is not known. -/
  | noSuchSystem (name : String)
  /-- The file of the database is to be on another machine. -/
  | badAuthority (authority : String)
  /-- An option has a value that is not known. -/
  | noSuchMode (kind value : String)
  /-- An option asks for more than is allowed. -/
  | modeNotAllowed (value : String)
  /-- The file is not one of a database. -/
  | notDatabase
  /-- The number in a column does not fit the record. -/
  | doesNotFit (column : String) (tooLarge : Bool)
  /-- The address of the database asks for something unknown. -/
  | badAddress (reason : String)
  deriving DecidableEq, Repr

namespace Fault

/-- The text of a refusal by the database itself, and its number where that is shown. -/
def refusal? : Fault → Option (Nat × String)
  | .notUnique columns => some (2067, "UNIQUE constraint failed: " ++ columns)
  | .danglingReference => some (787, "FOREIGN KEY constraint failed")
  | .missingValue column => some (1299, "NOT NULL constraint failed: " ++ column)
  | .syntaxError token => some (1, "near \"" ++ token ++ "\": syntax error")
  | .tooManyPlaces => some (1, "too many SQL variables")
  | .tooHigh => some (1, "Expression tree is too large (maximum depth 1000)")
  | .overlongPattern => some (1, "LIKE or GLOB pattern too complex")
  | .noTable name => some (1, "no such table: " ++ name)
  | .readOnly => some (8, "attempt to write a readonly database")
  | .unreadable => some (266, "disk I/O error")
  | .noSuchSystem name => some (1, "no such vfs: " ++ name)
  | .badAuthority authority => some (1, "invalid uri authority: " ++ authority)
  | .noSuchMode kind value => some (1, "no such " ++ kind ++ " mode: " ++ value)
  | .modeNotAllowed value => some (3, "access mode not allowed: " ++ value)
  | .cannotOpen => some (14, "unable to open database file")
  | .notDatabase => some (26, "file is not a database")
  | _ => none

/-- What is wrong with a number that does not fit. -/
def misfit (tooLarge : Bool) : String :=
  if tooLarge then "number too large to fit in target type"
  else "number too small to fit in target type"

/-- The text of a refusal with its number. -/
def numbered (refusal : Nat × String) : String :=
  "(code: " ++ toString refusal.1 ++ ") " ++ refusal.2

/-- The text of a failure. -/
def message (f : Fault) : String :=
  match f with
  | .disconnected reason => "error communicating with database: " ++ reason
  | .closed => "attempted to acquire a connection on a closed pool"
  | .timedOut => "pool timed out while waiting for an open connection"
  | .rowNotFound =>
    "no rows returned by a query that expected to return at least one row"
  | .doesNotFit column tooLarge =>
    "error occurred while decoding column \"" ++ column ++ "\": " ++ misfit tooLarge
  | .badAddress reason => "error with configuration: " ++ reason
  | _ => match f.refusal? with
    | some refusal => "error returned from database: " ++ numbered refusal
    | none => ""

/-- The texts of what caused a failure. -/
def sources (f : Fault) : List String :=
  match f with
  | .disconnected reason => [reason]
  | .doesNotFit _ tooLarge => [misfit tooLarge]
  | .badAddress reason => [reason]
  | _ => (f.refusal?.map numbered).toList

end Fault

/-! ## Failures of the store -/

/-- The kinds of records that a failure may be about. -/
inductive RecordKind where
  | performer
  | album
  | track
  deriving DecidableEq, Repr

/-- The word for a kind of record. -/
def RecordKind.name : RecordKind → String
  | .performer => "performer"
  | .album => "album"
  | .track => "track"

/-- Why the store refuses a request. -/
inductive StoreError where
  /-- A record of this kind is there already. -/
  | duplicate (reason : String)
  /-- A record is incomplete, or refers to one that is not there. -/
  | constraint (reason : String)
  /-- The store is closed or out of reach. -/
  | connectionLost (cause : Fault)
  /-- A track was to refer to a record that was never resolved. -/
  | missingReference (kind : RecordKind) (id : Int)
  /-- There is no record of this identity. -/
  | notFound (kind : RecordKind) (id : Int)
  /-- The tables of the store cannot be set up. -/
  | migration (cause : Fault)
  /-- Any other failure of the database. -/
  | query (cause : Fault)
  deriving DecidableEq, Repr

namespace StoreError

/-- The class of a failure of the database. -/
def ofFault (f : Fault) : StoreError :=
  match f with
  | .notUnique _ => .duplicate ((f.refusal?.map Prod.snd).getD "")
  | .danglingReference => .constraint ((f.refusal?.map Prod.snd).getD "")
  | .missingValue _ => .constraint ((f.refusal?.map Prod.snd).getD "")
  | .disconnected _ => .connectionLost f
  | .closed => .connectionLost f
  | .timedOut => .connectionLost f
  | _ => .query f

/-- What was being done when the tables could not be set up. -/
def whileMigrating (f : Fault) : String :=
  "while executing migrations: " ++ f.message

/-- The text of a failure. -/
def message : StoreError → String
  | .duplicate reason => "duplicate record: " ++ reason
  | .constraint reason => "constraint violation: " ++ reason
  | .connectionLost cause => "connection lost: " ++ cause.message
  | .missingReference kind id =>
    "unresolved " ++ kind.name ++ " reference (id " ++ toString id ++ ")"
  | .notFound kind id => kind.name ++ " " ++ toString id ++ " not found"
  | .migration cause => "schema bootstrap failed: " ++ whileMigrating cause
  | .query cause => "query failed: " ++ cause.message

/-- The texts of what caused a failure. -/
def sources : StoreError → List String
  | .connectionLost cause => cause.message :: cause.sources
  | .migration cause => whileMigrating cause :: cause.message :: cause.sources
  | .query cause => cause.message :: cause.sources
  | _ => []

end StoreError
end Fonoteca
