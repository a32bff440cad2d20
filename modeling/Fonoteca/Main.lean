import Fonoteca.CommandLine.Session

/-!
# The program

Runs the command that the arguments spell.  Without arguments it reads commands from its input, one
on each line, and runs them one after the other; the files that they share are kept in memory.
-/

set_option autoImplicit false

open Fonoteca

/-- The path in a variable of the environment. -/
def variablePath? (name : String) : IO (Option Path) := do
  return (← IO.getEnv name).map Path.ofString

/-- The user's folders. -/
def readEnvironment : IO Environment := do
  return {
    home := (← variablePath? "HOME").getD ⟨[]⟩
    configHome := ← variablePath? "XDG_CONFIG_HOME"
    cacheHome := ← variablePath? "XDG_CACHE_HOME"
    database := ← variablePath? "ROLAS_DB" }

/-- Prints the outcome of a command. -/
def printOutcome (o : Session.Outcome) : IO Unit := do
  IO.print o.out
  IO.eprint o.errors

/-- Runs the commands on the lines of the input until it ends. -/
partial def runLines (e : Environment) (input : IO.FS.Stream) (d : Disk Content) : IO Unit := do
  let line ← input.getLine
  if line.isEmpty then return
  match Session.words line with
  | [] => runLines e input d
  | arguments =>
    let (outcome, d) := Session.run e arguments d
    printOutcome outcome
    runLines e input d

/-- The program. -/
def main (arguments : List String) : IO UInt32 := do
  let e ← readEnvironment
  let disk := Disk.empty (Text.Utf8.encode "library")
  if arguments = [] then
    runLines e (← IO.getStdin) disk
    return 0
  else
    let (outcome, _) := Session.run e arguments disk
    printOutcome outcome
    return UInt32.ofNat outcome.exitCode
