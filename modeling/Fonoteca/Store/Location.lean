import Fonoteca.Disk.Change
import Fonoteca.Store.Basic
import Fonoteca.Store.Opening

/-!
# Where the library is kept

The tables of the library are kept in a file, or in memory as long as the store is there.

* `Disk.openDatabase` opens the store at an address, and makes its file if there is none.
* `Disk.keepDatabase` puts the tables back into the file, `Disk.settle` and `Disk.afterRequest` say
  when.

A file that the store has made is logged: while the library is in use, two more files stand beside
it.
-/

set_option autoImplicit false

namespace Fonoteca

/-- What a file holds: bytes, or the tables of a library, of which changes may be logged in files
beside it. -/
inductive Content where
  | bytes (contents : Bytes)
  | database (tables : Tables) (logged : Bool)
  deriving DecidableEq, Repr

namespace Database

/-- Where the tables of a store are. -/
inductive Place where
  | memory
  | file (place : List Bytes) (logged : Bool)
  deriving DecidableEq, Repr

/-! ## Finding the file -/

/-- How many links the database follows on one way. -/
def maxLinks : Nat := 201

/-- The place that some steps lead to.  A step of two dots takes back the last name, whether there
is such a folder or not, and a link is followed as soon as it is met. -/
def walk (root : Entries Content) (links : Nat) (here steps : List Bytes) :
    Option (List Bytes) :=
  match steps with
  | [] => some here
  | step :: rest =>
    if step = [] ∨ step = [Path.dot] then walk root links here rest
    else if step = [Path.dot, Path.dot] then walk root links here.dropLast rest
    else match root.lookup here with
      | some (.folder es) =>
        if Disk.maxNameLength < step.length then none
        else match es.find? step with
          | some (.link target) =>
            match links with
            | 0 => none
            | links + 1 =>
              walk root links (if target.isAbsolute then [] else here)
                (Path.segments target.bytes ++ rest)
          | _ => walk root links (here ++ [step]) rest
      | some _ => none
      | none => walk root links (here ++ [step]) rest
termination_by (links, steps.length)

/-- The greatest length of the whole path of a file. -/
def maxPathLength : Nat := 504

/-- The length of the whole path of a place. -/
def pathLength (place : List Bytes) : Nat :=
  place.foldl (fun n name => n + name.length + 1) 0

/-- The place of the file that a path names for the database, which need not be there. -/
def placeOf? (d : Disk Content) (p : Path) : Option (List Bytes) :=
  let place := walk d.root maxLinks (if p.isAbsolute then [] else d.home) (Path.segments p.bytes)
  place.filter fun names => !names.isEmpty && Nat.ble (pathLength names) maxPathLength

/-- A place beside another, with more at the end of its name. -/
def beside (place : List Bytes) (ending : String) : List Bytes :=
  match place.getLast? with
  | some name => place.dropLast ++ [name ++ Text.Utf8.encode ending]
  | none => []

/-- The end of the name of the file that holds the log of a database in use. -/
def log : String := "-wal"

/-- The end of the name of the file by which the users of a logged database share what they know of
the log. -/
def logIndex : String := "-shm"

/-- The ends of the names of the files that stand beside a logged database in use. -/
def companions (shared : Bool) : List String :=
  if shared then [logIndex, log] else [log]

/-- The end of the name of the file that stands beside a database while it is set up. -/
def journal : String := "-journal"

/-- Whether a name is left for the file that stands beside a database while it is set up. -/
def hasJournal (place : List Bytes) : Bool :=
  (place.getLast?.map List.length).getD 0 + journal.utf8ByteSize ≤ Disk.maxNameLength

/-! ## Connections -/

/-- A way to reach files. -/
structure System where
  /-- Whether changes can be logged. -/
  logs : Bool
  /-- Whether others may use a database at the same time. -/
  shares : Bool
  deriving DecidableEq, Repr

/-- The ways to reach files, by name. -/
def systems : List (String × System) :=
  [("unix", ⟨true, true⟩), ("unix-excl", ⟨true, false⟩), ("unix-none", ⟨false, true⟩),
   ("unix-dotfile", ⟨false, true⟩)]

/-- The way to reach files that are in memory. -/
def memorySystem : String := "memdb"

/-- A database that has been opened. -/
structure Connection where
  /-- The place of its file, unless it is in memory. -/
  file? : Option (List Bytes) := none
  /-- Whether it may only be read. -/
  readOnly : Bool := false
  /-- Whether nobody else is to change it meanwhile. -/
  immutable : Bool := false
  /-- Whether changes can be logged. -/
  canLog : Bool := true
  /-- Whether others may use it at the same time. -/
  shared : Bool := true
  deriving DecidableEq, Repr

/-- Whether an opening names something; there is nothing but memory to reach otherwise. -/
def isNamed (o : Opening) : Bool :=
  !o.inMemory && o.path.bytes != [] && o.path != Path.ofString Address.memoryName

/-- Whether an opening asks for tables in memory. -/
def isInMemory (o : Opening) : Bool :=
  !isNamed o || o.system == memorySystem

/-- The connection that an opening makes to a file, or to memory. -/
def Connection.ofOpening (o : Opening) (file? : Option (List Bytes)) : Connection where
  file? := file?
  readOnly := o.access = .read || (isNamed o && o.immutable)
  immutable := o.immutable
  canLog := o.locks && ((systems.lookup o.system).map System.logs).getD false
  shared := ((systems.lookup o.system).map System.shares).getD true

/-- Whether a file can be made at a place where none is. -/
def canHold (d : Disk Content) (place : List Bytes) : Bool :=
  match d.root.lookup place.dropLast with
  | some (.folder _) => true
  | _ => false

end Database

/-! ## Opening -/

namespace Disk

open Database

/-- Opens a database. -/
def connect (d : Disk Content) (o : Opening) : Except Fault (Connection × Disk Content) :=
  if o.system ≠ memorySystem ∧ (systems.lookup o.system).isNone then
    .error (.noSuchSystem o.system)
  else if isInMemory o then .ok (.ofOpening o none, d)
  else match placeOf? d o.path with
    | none => .error .cannotOpen
    | some place =>
      let connection := Connection.ofOpening o place
      match d.root.lookup place with
      | some (.file _) => .ok (connection, d)
      | some (.folder _) => .error (if o.access = .read then .unreadable else .cannotOpen)
      | some (.link _) => .error .cannotOpen
      | none =>
        if o.access = .create ∧ canHold d place then
          .ok (connection, d.putAt place (.file (.bytes [])))
        else .error .cannotOpen

/-- How many bytes a file may hold that counts as empty. -/
def emptySize : Nat := 1

/-- Makes the database of a connection a logged one. -/
def startLog (d : Disk Content) (c : Connection) : Except Fault (Disk Content) :=
  match c.file? with
  | none => .ok d
  | some place =>
    let logging (tables : Tables) : Except Fault (Disk Content) :=
      if c.immutable ∨ c.canLog = false then .ok d
      else if c.readOnly then .error .readOnly
      else if hasJournal place then .ok (d.putAt place (.file (.database tables true)))
      else .error .cannotOpen
    match d.root.lookup place with
    | some (.file (.bytes bs)) => if emptySize < bs.length then .error .notDatabase else logging {}
    | some (.file (.database _ true)) => if c.canLog then .ok d else .error .cannotOpen
    | some (.file (.database tables false)) => logging tables
    | _ => .error .cannotOpen

/-- Makes the file of the database at an address. -/
def createDatabase (d : Disk Content) (a : Address) : Except Fault Unit × Disk Content :=
  match (a.opening true).bind d.connect with
  | .error fault => (.error fault, d)
  | .ok (connection, d) =>
    match d.startLog connection with
    | .error fault => (.error fault, d)
    | .ok d => (.ok (), d)

/-- The disk while a database is in use, perhaps by others as well. -/
def useDatabase (d : Disk Content) (place : List Bytes) (tables : Tables) (logged shared : Bool) :
    Disk Content :=
  let d := d.putAt place (.file (.database tables logged))
  if logged then
    (companions shared).foldl (fun d ending => d.putAt (beside place ending) (.file (.bytes []))) d
  else d

/-- The store of a connection, the tables of which are set up if they are not there yet. -/
def setUp (d : Disk Content) (c : Connection) : Except Fault (Store × Place × Disk Content) :=
  match c.file? with
  | none =>
    if c.readOnly then .error .readOnly else .ok ({ inMemory := true }, .memory, d)
  | some place =>
    match d.root.lookup place with
    | some (.file (.bytes bs)) =>
      if emptySize < bs.length then .error .notDatabase
      else if c.readOnly then .error .readOnly
      else if hasJournal place then
        .ok ({}, .file place false, d.useDatabase place {} false c.shared)
      else .error .cannotOpen
    | some (.file (.database tables logged)) =>
      if logged ∧ c.canLog = false ∧ c.immutable = false then .error .cannotOpen
      else
        let d := if c.immutable then d else d.useDatabase place tables logged c.shared
        .ok ({ tables, readOnly := c.readOnly }, .file place logged, d)
    | _ => .error .cannotOpen

/-- Whether a path names anything. -/
def isThere (d : Disk Content) (p : Path) : Bool :=
  (d.node true p).toBool

/-- The store at an address, and where its tables are.  The disk may have changed even if the store
cannot be opened. -/
def openDatabase (d : Disk Content) (address : String) :
    Except StoreError (Store × Place) × Disk Content :=
  match Address.parse? address with
  | .error fault => (.error (.ofFault fault), d)
  | .ok a =>
    let made :=
      if a.inMemory || d.isThere (Path.ofString a.name) then (.ok (), d) else d.createDatabase a
    match made with
    | (.error fault, d) => (.error (.ofFault fault), d)
    | (.ok (), d) =>
      match (a.opening a.creates).bind d.connect with
      | .error fault => (.error (.ofFault fault), d)
      | .ok (connection, d) =>
        match d.setUp connection with
        | .error fault => (.error (.migration fault), d)
        | .ok (store, place, d) => (.ok (store, place), d)

/-! ## Keeping -/

/-- The disk with the tables of a store in their file, when the store is in use no more.  A store
that may only be read leaves everything as it is. -/
def keepDatabase (d : Disk Content) (place : Place) (store : Store) : Disk Content :=
  match place with
  | .memory => d
  | .file place logged =>
    if store.readOnly then d
    else
      let root :=
        (companions true).foldl (fun root ending => root.eraseAt (beside place ending)) d.root
      Disk.putAt { d with root } place (.file (.database store.tables logged))

/-- The disk after a store has been closed, if it was open. -/
def settle (d : Disk Content) (place : Place) (store : Store) : Disk Content :=
  if store.isOpen then d.keepDatabase place store else d

/-- The disk after a request to a store.  What others add to the tables of a closed store is in the
file at once. -/
def afterRequest (d : Disk Content) (place : Place) (before after : Store) : Disk Content :=
  if after.isOpen ∨ after.tables = before.tables then d else d.keepDatabase place after

end Disk
end Fonoteca
