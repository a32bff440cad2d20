import Fonoteca.CommandLine.Basic
import Fonoteca.Text.Numeral

/-!
# What may stand on the command line

The commands form a tree.  Each level of it has options, arguments that are told apart by their
order, and names of levels below it.

* `Level` are the levels, `Level.below`, `Level.options` and `Level.arguments` what may be given
  there.
* `Form` says what a value has to be, and `Form.read` reads it.
* `Level.command` makes a command of the values that were given.
* `Usage` says why arguments are not run as a command.
-/

set_option autoImplicit false

namespace Fonoteca

/-! ## Refusals -/

/-- Why arguments are not run as a command. -/
inductive Usage where
  /-- They ask how the program is used. -/
  | help
  /-- They ask which version of the program this is. -/
  | version
  /-- Nothing says what to do. -/
  | nothingGiven
  /-- The name of a command is missing behind what was given. -/
  | missingCommand
  /-- No command has this name. -/
  | unknownCommand
  /-- Something stands where nothing can. -/
  | unknownArgument
  /-- An argument that has to be there is not. -/
  | missingArgument
  /-- An option was given twice. -/
  | repeatedOption
  /-- An option that has no value was given one. -/
  | needlessValue
  /-- A value is missing or empty. -/
  | missingValue
  /-- A value is not what it has to be. -/
  | wrongValue
  deriving DecidableEq, Repr

/-- The number with which the program ends: asking for help is no failure. -/
def Usage.exitCode : Usage → Nat
  | .help => 0
  | .version => 0
  | _ => 2

/-! ## Values -/

/-- What a value has to be. -/
inductive Form where
  /-- There is no value; the option is given or not. -/
  | switch
  /-- Any text. -/
  | text
  /-- A path, which may not be empty. -/
  | path
  /-- A whole number between two bounds. -/
  | number (lo hi : Int)
  /-- The name of a kind of performer. -/
  | kind
  deriving DecidableEq, Repr

/-- A value that was given. -/
inductive Value where
  | on
  | text (s : String)
  | path (p : Path)
  | number (n : Int)
  | kind (k : PerformerKind)
  deriving DecidableEq, Repr

namespace Form

/-- A path that may not be empty. -/
def readPath (p : Path) : Except Usage Value :=
  if p.bytes = [] then .error .missingValue else .ok (.path p)

/-- The value that a text spells. -/
def read (form : Form) (s : String) : Except Usage Value :=
  match form with
  | .switch => .ok .on
  | .text => .ok (.text s)
  | .path => readPath (Path.ofString s)
  | .number lo hi =>
    match Text.Numeral.integer? lo hi s with
    | some n => .ok (.number n)
    | none => .error .wrongValue
  | .kind => ((PerformerKind.ofName? s).map Value.kind).mapError fun _ => .wrongValue

/-- A number of a record. -/
def id : Form := .number Text.Numeral.int64Min Text.Numeral.int64Max

/-- The number of a track on its album. -/
def trackNumber : Form := .number 0 Text.Numeral.uint32Max

/-- A year. -/
def year : Form := .number Text.Numeral.int32Min Text.Numeral.int32Max

end Form

/-- An option or an argument. -/
structure Parameter where
  name : String
  form : Form
  deriving DecidableEq, Repr

/-- Options of one form. -/
def Parameter.all (form : Form) (names : List String) : List Parameter :=
  names.map fun name => { name, form }

/-! ## Levels -/

/-- The levels of the tree of commands. -/
inductive Level where
  | program
  | scan | list | search | details | edit | settings
  | performer | classify
  | person | addPerson | updatePerson | listPersons
  | group | addGroup | updateGroup | join | members | listGroups
  deriving DecidableEq, Repr

namespace Level

/-- The names of the levels below a level. -/
def below : Level → List (String × Level)
  | .program =>
    [("scan", .scan), ("list", .list), ("search", .search), ("show", .details), ("edit", .edit),
     ("performer", .performer), ("person", .person), ("group", .group), ("config", .settings)]
  | .performer => [("classify", .classify)]
  | .person => [("add", .addPerson), ("update", .updatePerson), ("list", .listPersons)]
  | .group =>
    [("add", .addGroup), ("update", .updateGroup), ("join", .join), ("members", .members),
     ("list", .listGroups)]
  | _ => []

/-- The name of the option for the file of the library, which every level has. -/
def database : String := "db"

/-- The options that only this level has. -/
def ownOptions : Level → List Parameter
  | .scan => [⟨"extension", .text⟩]
  | .list => [⟨"json", .switch⟩]
  | .search => [⟨"json", .switch⟩]
  | .edit =>
    Parameter.all .text ["title", "artist", "album", "genre"] ++
      [⟨"track", .trackNumber⟩, ⟨"year", .year⟩]
  | .settings => [⟨"save", .switch⟩]
  | .addPerson => Parameter.all .text ["real-name", "birth", "death"]
  | .updatePerson => Parameter.all .text ["stage-name", "real-name", "birth", "death"]
  | .addGroup => Parameter.all .text ["start", "end"]
  | .updateGroup => Parameter.all .text ["name", "start", "end"]
  | _ => []

/-- The options of a level. -/
def options (l : Level) : List Parameter :=
  ⟨database, .path⟩ :: l.ownOptions

/-- The arguments of a level, in order. -/
def arguments : Level → List Parameter
  | .scan => [⟨"root", .path⟩]
  | .search => [⟨"text", .text⟩]
  | .details => [⟨"id", .id⟩]
  | .edit => [⟨"id", .id⟩]
  | .classify => [⟨"performer", .text⟩, ⟨"kind", .kind⟩]
  | .addPerson => [⟨"person", .text⟩]
  | .updatePerson => [⟨"id", .id⟩]
  | .addGroup => [⟨"group", .text⟩]
  | .updateGroup => [⟨"id", .id⟩]
  | .join => [⟨"person", .text⟩, ⟨"group", .text⟩]
  | .members => [⟨"group", .text⟩]
  | _ => []

/-- The option of a name. -/
def option? (l : Level) (name : String) : Option Parameter :=
  l.options.find? (·.name = name)

/-- The level of a name below a level. -/
def below? (l : Level) (name : String) : Option Level :=
  l.below.lookup name

/-- The name that asks for help. -/
def helpName : String := "help"

/-- Whether a name means something at a level that has levels below it. -/
def knows (l : Level) (name : String) : Bool :=
  name = helpName || (l.below? name).isSome

end Level

/-! ## From values to commands -/

/-- The values that were given, each with the name of its option or argument. -/
abbrev Values := List (String × Value)

namespace Values

/-- Whether a value was given. -/
def has (vs : Values) (name : String) : Bool :=
  (vs.lookup name).isSome

/-- The text that was given. -/
def text? (vs : Values) (name : String) : Option String :=
  match vs.lookup name with
  | some (.text s) => some s
  | _ => none

/-- The path that was given. -/
def path? (vs : Values) (name : String) : Option Path :=
  match vs.lookup name with
  | some (.path p) => some p
  | _ => none

/-- The number that was given. -/
def number? (vs : Values) (name : String) : Option Int :=
  match vs.lookup name with
  | some (.number n) => some n
  | _ => none

/-- The kind of performer that was given. -/
def kind? (vs : Values) (name : String) : Option PerformerKind :=
  match vs.lookup name with
  | some (.kind k) => some k
  | _ => none

/-- The changes of a track that were given. -/
def trackChanges (vs : Values) : TrackChanges where
  title := vs.text? "title"
  artist := vs.text? "artist"
  album := vs.text? "album"
  genre := vs.text? "genre"
  number := (vs.number? "track").map fun n => UInt32.ofNat n.toNat
  year := (vs.number? "year").map Int32.ofInt

/-- The changes of a person that were given. -/
def personChanges (vs : Values) : PersonChanges where
  stageName := vs.text? "stage-name"
  realName := vs.text? "real-name"
  birthDate := vs.text? "birth"
  deathDate := vs.text? "death"

/-- The changes of a group that were given. -/
def groupChanges (vs : Values) : GroupChanges where
  name := vs.text? "name"
  startDate := vs.text? "start"
  endDate := vs.text? "end"

/-- The person that was given; what was not given is empty. -/
def person (vs : Values) (stageName : String) : Person where
  stageName := stageName
  realName := (vs.text? "real-name").getD ""
  birthDate := (vs.text? "birth").getD ""
  deathDate := (vs.text? "death").getD ""

/-- The group that was given; what was not given is empty. -/
def group (vs : Values) (name : String) : Group where
  name := name
  startDate := (vs.text? "start").getD ""
  endDate := (vs.text? "end").getD ""

/-- The command at a level, if all arguments that it has to have were given. -/
def command? (vs : Values) : Level → Option Command
  | .scan => some (.library (.scan (vs.path? "root") (vs.text? "extension")))
  | .list => some (.library (.list (vs.has "json")))
  | .search => (vs.text? "text").map fun s => .library (.search s (vs.has "json"))
  | .details => (vs.number? "id").map fun id => .library (.details id)
  | .edit => (vs.number? "id").map fun id => .library (.edit id vs.trackChanges)
  | .settings => some (.settings (vs.has "save"))
  | .classify => do
    let name ← vs.text? "performer"
    let kind ← vs.kind? "kind"
    return .library (.classify name kind)
  | .addPerson => (vs.text? "person").map fun s => .library (.addPerson (vs.person s))
  | .updatePerson =>
    (vs.number? "id").map fun id => .library (.updatePerson id vs.personChanges)
  | .listPersons => some (.library .listPersons)
  | .addGroup => (vs.text? "group").map fun s => .library (.addGroup (vs.group s))
  | .updateGroup => (vs.number? "id").map fun id => .library (.updateGroup id vs.groupChanges)
  | .join => do
    let person ← vs.text? "person"
    let group ← vs.text? "group"
    return .library (.join person group)
  | .members => (vs.text? "group").map fun s => .library (.members s)
  | .listGroups => some (.library .listGroups)
  | .program => none
  | .performer => none
  | .person => none
  | .group => none

end Values
end Fonoteca
