import Fonoteca.CommandLine.Run

/-!
# A session

Several commands in a row, each on a line of its own, work on one disk.

* `Session.words` divides a line into the arguments of a command.
* `Session.run` runs the command on a line and says what to print.
* `Usage.message` is what is said about arguments that are not run.
-/

set_option autoImplicit false

namespace Fonoteca

/-- What is said about arguments that are not run as a command. -/
def Usage.message : Usage → String
  | .help => "usage: " ++ Environment.appName ++ " [--db FILE] COMMAND [ARGUMENTS]\ncommands: " ++
      ", ".intercalate (Level.program.below.map Prod.fst)
  | .version => Environment.appName
  | .nothingGiven => "no command was given; try --help"
  | .missingCommand => "the name of a command is missing; try --help"
  | .unknownCommand => "no command has this name; try --help"
  | .unknownArgument => "an argument is not expected here; try --help"
  | .missingArgument => "an argument is missing; try --help"
  | .repeatedOption => "an option was given twice"
  | .needlessValue => "an option that has no value was given one"
  | .missingValue => "an option has no value"
  | .wrongValue => "a value is not what it has to be"

namespace Session

/-! ## Words -/

/-- The words of a line of which a part has been read: `word` is the word at hand, backwards, and
`quoted` says whether blanks belong to it. -/
def wordsFrom (quoted : Bool) (word : Option (List Char)) : List Char → List String
  | [] => (word.map fun cs => String.ofList cs.reverse).toList
  | c :: cs =>
    if c = '"' then wordsFrom (!quoted) (some (word.getD [])) cs
    else if Text.isBlank c && !quoted then
      (word.map fun cs => String.ofList cs.reverse).toList ++ wordsFrom false none cs
    else wordsFrom quoted (some (c :: word.getD [])) cs

/-- The words of a line.  Blanks separate them, but not those between double quotes. -/
def words (line : String) : List String :=
  wordsFrom false none line.toList

/-! ## Commands -/

/-- What to print about a command, and the number with which the program would end. -/
structure Outcome where
  out : String
  errors : String
  exitCode : Nat
  deriving DecidableEq, Repr, Inhabited

/-- The text of a failure with what caused it. -/
def explain (e : CommandFailure) : String :=
  String.join (("Error: " ++ e.message ++ "\n") ::
    e.sources.map fun s => "  caused by: " ++ s ++ "\n")

/-- What to print about a command that was run. -/
def ofReport (r : Report) : Outcome where
  out := r.out
  errors := r.remarks ++ (r.failure.map explain).getD ""
  exitCode := r.exitCode

/-- What to print about arguments that are not run: an answer to a question is a result. -/
def ofUsage (u : Usage) : Outcome :=
  if u.exitCode = 0 then { out := u.message ++ "\n", errors := "", exitCode := 0 }
  else { out := "", errors := u.message ++ "\n", exitCode := u.exitCode }

/-- Runs the command that some arguments spell. -/
def run (e : Environment) (arguments : List String) (d : Disk Content) :
    Outcome × Disk Content :=
  match CommandLine.run e arguments d with
  | .ok (report, d) => (ofReport report, d)
  | .error u => (ofUsage u, d)

end Session
end Fonoteca
