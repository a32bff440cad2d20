import Fonoteca.CommandLine.Grammar

/-!
# Reading the command line

The arguments are read from left to right, one level at a time.  The name of a level below ends the
reading of a level: everything behind it belongs to that level, and what was read here is checked
after that level has been read to its end.

* `Reading` is what has been read at one level.
* `Level.read` reads the arguments of a level and of those below it.
* `Invocation.read` reads a whole command line.
-/

set_option autoImplicit false

namespace Fonoteca

/-! ## Reading one level -/

/-- What has been read at one level. -/
structure Reading where
  /-- The values that have been checked. -/
  values : Values := []
  /-- The option or argument read last, with its text; an option may still be without one. -/
  latest : Option (Parameter × Option String) := none
  /-- The arguments that have not been given. -/
  remaining : List Parameter := []
  /-- Whether `--` has been read, behind which there are no options. -/
  onlyArguments : Bool := false
  deriving DecidableEq, Repr

namespace Reading

/-- The reading of a level to begin with. -/
def start (l : Level) : Reading :=
  { remaining := l.arguments }

/-- Whether the next argument is the value of an option. -/
def awaitsValue (r : Reading) : Bool :=
  match r.latest with
  | some (_, none) => true
  | _ => false

/-- Adds a value that was not given before. -/
def add (r : Reading) (p : Parameter) (s : String) : Except Usage Reading := do
  if r.values.has p.name then throw .repeatedOption
  let v ← p.form.read s
  return { r with values := r.values ++ [(p.name, v)] }

/-- Checks what was read last. -/
def settle (r : Reading) : Except Usage Reading :=
  match r.latest with
  | none => .ok r
  | some (_, none) => .error .missingValue
  | some (p, some s) => { r with latest := none }.add p s

/-- Refuses what follows, unless what was read before it is refused first. -/
def settleAnd (r : Reading) (u : Usage) : Except Usage Reading := do
  let _ ← r.settle
  throw u

/-- Reads an option, with the value that stands behind its `=`, if there is one. -/
def readOption (l : Level) (r : Reading) (name : String) (value : Option String) :
    Except Usage Reading :=
  if name = Level.helpName then
    if value.isSome then .error .needlessValue else r.settleAnd .help
  else if name = "version" ∧ l = .program then
    if value.isSome then .error .needlessValue else r.settleAnd .version
  else
    match l.option? name, value with
    | none, _ => .error .unknownArgument
    | some p, none => do
      let r ← r.settle
      if p.form = .switch then r.add p "" else return { r with latest := some (p, none) }
    | some p, some s =>
      if p.form = .switch then .error .needlessValue
      else do
        let r ← r.settle
        r.add p s

/-- Reads what follows a single `-`: only help and the version have such short names. -/
def readShort (l : Level) (r : Reading) (name : Char) : Except Usage Reading :=
  if name = 'h' then r.settleAnd .help
  else if name = 'V' ∧ l = .program then r.settleAnd .version
  else .error .unknownArgument

/-- Reads an argument that is told by its order. -/
def readArgument (l : Level) (r : Reading) (s : String) : Except Usage Reading :=
  match r.remaining with
  | p :: rest => do
    let r ← r.settle
    return { r with latest := some (p, some s), remaining := rest }
  | [] =>
    if l.below = [] ∨ (r.onlyArguments ∧ l.knows s) then .error .unknownArgument
    else .error .unknownCommand

/-- An option as it is spelled behind `--`: its name, and its value if there is an `=`. -/
def splitOption (cs : List Char) : String × Option String :=
  (String.ofList (cs.takeWhile (· ≠ '=')),
    match cs.dropWhile (· ≠ '=') with
    | [] => none
    | _ :: value => some (String.ofList value))

/-- Reads one argument that names no level. -/
def readNext (l : Level) (r : Reading) (s : String) : Except Usage Reading :=
  if r.onlyArguments then r.readArgument l s
  else
    match s.toList with
    | ['-', '-'] => .ok { r with onlyArguments := true }
    | '-' :: '-' :: cs => r.readOption l (splitOption cs).1 (splitOption cs).2
    | '-' :: c :: _ => r.readShort l c
    | _ =>
      match r.latest with
      | some (p, none) => .ok { r with latest := some (p, some s) }
      | _ => r.readArgument l s

/-- The level below that an argument names, if the name of a level can stand here. -/
def below? (l : Level) (r : Reading) (s : String) : Option Level :=
  if r.onlyArguments || r.awaitsValue then none else l.below? s

/-- Whether an argument asks for help about the levels that are named behind it. -/
def asksForHelp (l : Level) (r : Reading) (s : String) : Bool :=
  s = Level.helpName && l.below ≠ [] && !r.onlyArguments && !r.awaitsValue

/-- Checks what was read last, and the file that the environment names where none was given. -/
def finish (r : Reading) (database : Option Path) : Except Usage Reading := do
  let r ← r.settle
  if let some p := database then
    if !r.values.has Level.database then
      let _ ← Form.readPath p
  return r

end Reading

/-! ## Reading all levels -/

/-- What an invocation lacks at a level with levels below it. -/
def Level.lack (r : Reading) (database : Option Path) : Usage :=
  if r.values = [] ∧ database = none then .nothingGiven else .missingCommand

/-- The answer to a question for help about a level below. -/
def Level.help : Level → List String → Usage
  | _, [] => .help
  | l, s :: rest =>
    if l.below ≠ [] ∧ s = Level.helpName then (if rest = [] then .help else .unknownCommand)
    else match l.below? s with
      | some sub => sub.help rest
      | none => .unknownCommand

/-- The invocation at a level where the arguments end. -/
def Level.finish (l : Level) (database : Option Path) (r : Reading) : Except Usage Invocation := do
  let r ← r.finish database
  if l.below ≠ [] then throw (Level.lack r database)
  match r.values.command? l with
  | some command => return { database := r.values.path? Level.database, command }
  | none => throw .missingArgument

/-- Reads the arguments of a level and of those below it.  `database` is the file of the library
that the environment names. -/
def Level.read (database : Option Path) : Level → Reading → List String → Except Usage Invocation
  | l, r, [] => l.finish database r
  | l, r, s :: rest =>
    if r.asksForHelp l s then .error (l.help rest)
    else match r.below? l s with
      | some sub => do
        let found ← sub.read database (Reading.start sub) rest
        let r ← r.finish database
        return { found with database := found.database <|> r.values.path? Level.database }
      | none => do
        let r ← r.readNext l s
        l.read database r rest

/-- Reads a command line.  The file of the library may be named at any level, of which the deepest
counts, or by the environment. -/
def Invocation.read (database : Option Path) (arguments : List String) :
    Except Usage Invocation := do
  let found ← Level.read database .program (Reading.start .program) arguments
  return { found with database := found.database <|> database }

end Fonoteca
