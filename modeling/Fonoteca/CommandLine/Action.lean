import Fonoteca.CommandLine.Basic
import Fonoteca.CommandLine.Failure
import Fonoteca.Json
import Fonoteca.Scan.Basic
import Fonoteca.Tags.File

/-!
# What the commands do

A command sends requests to the store and prints what comes of them.  It may fail at any point; what
it has printed and changed by then stays.

* `Stage` is what a command works on, `ActionM` the type of what it does there.
* `LibraryCommand.action` is what a command does.
-/

set_option autoImplicit false

namespace Fonoteca

/-! ## Actions -/

/-- The store, and what has been printed: results and remarks. -/
structure Stage where
  store : Store := {}
  out : String := ""
  remarks : String := ""
  deriving DecidableEq, Repr, Inhabited

/-- What a command does: it may print, change the store, and fail. -/
abbrev ActionM := ExceptT CommandFailure (StateM Stage)

namespace ActionM

variable {α : Type}

/-- Prints a line of the results. -/
def print (line : String) : ActionM Unit :=
  modify fun s => { s with out := s.out ++ line ++ "\n" }

/-- Prints some lines of the results. -/
def printAll (lines : List String) : ActionM Unit :=
  lines.forM print

/-- Prints a remark. -/
def remark (line : String) : ActionM Unit :=
  modify fun s => { s with remarks := s.remarks ++ line ++ "\n" }

/-- Changes the store. -/
def inStore (act : StateM Store α) : ActionM α :=
  ExceptT.lift fun s =>
    let (a, store) := act s.store
    (a, { s with store })

/-- Sends a request to the store, of which a failure is reported in some form. -/
def requestAs (report : StoreError → CommandFailure) (request : StoreM α) : ActionM α := do
  match ← inStore request.run with
  | .ok a => return a
  | .error e => throw (report e)

/-- Sends a request to the store. -/
def request (request : StoreM α) : ActionM α :=
  requestAs .store request

/-- What a request finds; it fails if nothing is found. -/
def require (what : String) (find : StoreM (Option α)) : ActionM α := do
  match ← request find with
  | some a => return a
  | none => throw (.notFound what)

end ActionM

namespace Action

open ActionM

/-! ## What is printed -/

/-- A number, with blanks in front to make up six characters. -/
def padded (n : Int) : String :=
  let digits := (toString n).toList
  String.ofList (List.replicate (6 - digits.length) ' ' ++ digits)

/-- The line of a track in a list. -/
def trackLine (t : Track) : String :=
  padded t.id ++ "  " ++ t.artist ++ " - " ++ t.title ++ " [" ++ t.album ++ " #" ++
    toString t.number.toNat ++ ", " ++ toString t.year.toInt ++ "] " ++ t.genre

/-- Prints a list of tracks. -/
def printTracks (asJson : Bool) (ts : List Track) : ActionM Unit :=
  if asJson then print (Json.write (ts.map Track.record))
  else do
    printAll (ts.map trackLine)
    print (toString ts.length ++ " track(s)")

/-- Prints names with their numbers. -/
def printNamed (entries : List (String × Int)) : ActionM Unit :=
  printAll (entries.map fun e => padded e.2 ++ "  " ++ e.1)

/-- Prints a value behind its name, unless it is empty. -/
def printGiven (label value : String) : ActionM Unit :=
  if value = "" then pure () else print (label ++ value)

/-! ## Tracks -/

/-- The totals of a scan as they are printed. -/
def summaryText (s : ScanSummary) : String :=
  "\nScan complete. " ++ toString s.discovered ++ " file(s) found: " ++ toString s.inserted ++
    " added, " ++ toString s.skipped ++ " already in library, " ++ toString s.failed ++
    " unreadable."

/-- Scans a folder of a disk. -/
def scanFolder (disk : Disk Content) (root : Path) (extension : String) : ActionM Unit := do
  print ("Scanning directory: " ++ root.display)
  let (accepted, result) ← inStore (scan disk disk.tagReader extension none root)
  printAll (accepted.map trackLine)
  match result with
  | .ok summary => print (summaryText summary)
  | .error e => throw (.library e)

/-- Lists all tracks. -/
def listTracks (asJson : Bool) : ActionM Unit := do
  printTracks asJson (← request Store.tracks)

/-- Lists the tracks that the text in the search bar asks for. -/
def searchTracks (plan : Plan) (text : String) (asJson : Bool) : ActionM Unit := do
  if Query.isMarked text ∧ (Search.parse text).isFilter = false then
    remark "No recognizable query terms, matching every track."
  let ids ← requestAs (fun e => .library (.store e)) (Store.search plan text)
  let found ← ids.mapM fun id => request (Store.track? id)
  printTracks asJson (found.filterMap id)

/-- The track with a number. -/
def requireTrack (id : Int) : ActionM Track :=
  require ("track " ++ toString id) (Store.track? id)

/-- Changes what the library says about a track. -/
def editTrack (id : Int) (changes : TrackChanges) : ActionM Unit := do
  let track ← requireTrack id
  if changes.isEmpty then print "Nothing to change."
  else
    let changed := changes.apply track
    request (Store.updateTrack changed)
    print (trackLine changed)

/-! ## Details of a track -/

/-- Prints what a track says. -/
def printTrack (t : Track) : ActionM Unit :=
  printAll ["Title:    " ++ t.title, "Artist:   " ++ t.artist, "Album:    " ++ t.album,
    "Track:    " ++ toString t.number.toNat, "Year:     " ++ toString t.year.toInt,
    "Genre:    " ++ t.genre, "Path:     " ++ t.path]

/-- Prints what is known about the person of a name. -/
def printPerson (name : String) : ActionM Unit := do
  let some id ← request (Store.personNamed? name) | return
  let some person ← request (Store.person? id) | return
  printGiven "Real name: " person.realName
  printGiven "Born:      " person.birthDate
  printGiven "Died:      " person.deathDate
  let groups ← request (Store.groupsOf id)
  if groups ≠ [] then print ("Groups:    " ++ ", ".intercalate groups)

/-- Prints what is known about the group of a name. -/
def printGroup (name : String) : ActionM Unit := do
  let some id ← request (Store.groupNamed? name) | return
  let some group ← request (Store.group? id) | return
  if group.startDate ≠ "" ∨ group.endDate ≠ "" then
    print ("Active:    " ++ group.startDate ++ " - " ++ group.endDate)
  let members ← request (Store.members id)
  if members ≠ [] then print ("Members:   " ++ ", ".intercalate members)

/-- Prints what is known about a performer. -/
def printPerformer (p : Performer) : ActionM Unit := do
  print ("Performer type: " ++ p.kind.name)
  match p.kind with
  | .person => printPerson p.name
  | .group => printGroup p.name
  | .unknown => pure ()

/-- Shows a track and what is known about its performer. -/
def showTrack (id : Int) : ActionM Unit := do
  printTrack (← requireTrack id)
  let some (performer, album) ← request (Store.references? id) | return
  if let some album ← request (Store.album? album) then
    print ("Album dir: " ++ album.directory ++ " (" ++ toString album.year.toInt ++ ")")
  let some performer ← request (Store.performer? performer) | return
  printPerformer performer

/-! ## Performers, persons and groups -/

/-- Adds a person and says so. -/
def newPerson (person : Person) : ActionM Unit := do
  let id ← request (Store.addPerson person)
  print ("Added person " ++ toString id ++ ": " ++ person.stageName)

/-- Adds a group and says so. -/
def newGroup (group : Group) : ActionM Unit := do
  let id ← request (Store.addGroup group)
  print ("Added group " ++ toString id ++ ": " ++ group.name)

/-- Adds the person or the group that a performer of some kind stands for, if there is none. -/
def ensureRecord (name : String) (kind : PerformerKind) : ActionM Unit := do
  match kind with
  | .person =>
    if (← request (Store.personNamed? name)).isNone then newPerson { stageName := name }
  | .group =>
    if (← request (Store.groupNamed? name)).isNone then newGroup { name := name }
  | .unknown => pure ()

/-- Says what a performer is. -/
def classify (name : String) (kind : PerformerKind) : ActionM Unit := do
  let id ← require ("performer " ++ Text.quoted name) (Store.performerNamed? name)
  request (Store.setKind id kind)
  ensureRecord name kind
  print (name ++ " is now classified as " ++ kind.name)

/-- Adds a person of a new name. -/
def addPerson (person : Person) : ActionM Unit := do
  match ← request (Store.personNamed? person.stageName) with
  | some id => throw (.personExists person.stageName id)
  | none => newPerson person

/-- Changes what is known about a person. -/
def updatePerson (id : Int) (changes : PersonChanges) : ActionM Unit := do
  let person := changes.apply (← require ("person " ++ toString id) (Store.person? id))
  request (Store.updatePerson person)
  print ("Updated person " ++ toString id ++ ": " ++ person.stageName)

/-- Adds a group of a new name. -/
def addGroup (group : Group) : ActionM Unit := do
  match ← request (Store.groupNamed? group.name) with
  | some id => throw (.groupExists group.name id)
  | none => newGroup group

/-- Changes what is known about a group. -/
def updateGroup (id : Int) (changes : GroupChanges) : ActionM Unit := do
  let group := changes.apply (← require ("group " ++ toString id) (Store.group? id))
  request (Store.updateGroup group)
  print ("Updated group " ++ toString id ++ ": " ++ group.name)

/-- The number of the group of a name. -/
def requireGroup (name : String) : ActionM Int :=
  require ("group " ++ Text.quoted name) (Store.groupNamed? name)

/-- Makes a person a member of a group. -/
def joinGroup (person group : String) : ActionM Unit := do
  let personId ← require ("person " ++ Text.quoted person) (Store.personNamed? person)
  let groupId ← requireGroup group
  request (Store.join personId groupId)
  print (person ++ " is a member of " ++ group)

/-- Lists the members of a group. -/
def listMembers (group : String) : ActionM Unit := do
  let members ← request (Store.members (← requireGroup group))
  if members = [] then print (group ++ " has no recorded members")
  printAll members

end Action

/-! ## All commands -/

/-- What a command does, on a disk, with the plan of the database and with the folder and the
extension that the settings give. -/
def LibraryCommand.action (disk : Disk Content) (plan : Plan) (folder : Path) (ending : String) :
    LibraryCommand → ActionM Unit
  | .scan root extension => Action.scanFolder disk (root.getD folder) (extension.getD ending)
  | .list asJson => Action.listTracks asJson
  | .search text asJson => Action.searchTracks plan text asJson
  | .details id => Action.showTrack id
  | .edit id changes => Action.editTrack id changes
  | .classify name kind => Action.classify name kind
  | .addPerson person => Action.addPerson person
  | .updatePerson id changes => Action.updatePerson id changes
  | .listPersons => do Action.printNamed (← ActionM.request Store.personNames)
  | .addGroup group => Action.addGroup group
  | .updateGroup id changes => Action.updateGroup id changes
  | .join person group => Action.joinGroup person group
  | .members group => Action.listMembers group
  | .listGroups => do Action.printNamed (← ActionM.request Store.groupNames)

end Fonoteca
