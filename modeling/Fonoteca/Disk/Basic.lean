import Fonoteca.Path

/-!
# A tree of files

The program's view of a file system is a value: a tree of folders, files and symbolic links, and the
folder in which relative paths start.  What a file holds is left open, as a parameter.

* `Node` and `Entries` are the tree, `Entries.find?`, `Entries.put` and `Entries.erase` change one
  folder, `Entries.lookup`, `Entries.putAt` and `Entries.eraseAt` reach below it.
* `Disk.locate` finds the place that a path names, through links, and says why there is none.
* `Disk.node` and `Disk.read` look there.
-/

set_option autoImplicit false

namespace Fonoteca

/-! ## Failures -/

/-- Why the file system refuses a request. -/
inductive DiskError where
  | strayNul
  | notFound
  | busy
  | alreadyThere
  | notFolder
  | isFolder
  | beforeStart
  | nameTooLong
  | tooManyLinks
  | noWholeTree
  deriving DecidableEq, Repr

/-- The text of a refusal. -/
def DiskError.message : DiskError → String
  | .strayNul => "file name contained an unexpected NUL byte"
  | .notFound => "No such file or directory (os error 2)"
  | .busy => "Device or resource busy (os error 16)"
  | .alreadyThere => "File exists (os error 17)"
  | .notFolder => "Not a directory (os error 20)"
  | .isFolder => "Is a directory (os error 21)"
  | .beforeStart => "Invalid argument (os error 22)"
  | .nameTooLong => "File name too long (os error 36)"
  | .tooManyLinks => "Too many levels of symbolic links (os error 40)"
  | .noWholeTree => "failed to create whole tree"

/-! ## The tree -/

mutual

/-- What a name in a folder stands for. -/
inductive Node (α : Type) where
  | file (contents : α)
  | link (target : Path)
  | folder (entries : Entries α)

/-- The names in a folder and what they stand for. -/
inductive Entries (α : Type) where
  | nil
  | cons (name : Bytes) (node : Node α) (rest : Entries α)

end

namespace Entries

variable {α : Type}

/-- What a name stands for. -/
def find? : Entries α → Bytes → Option (Node α)
  | .nil, _ => none
  | .cons n node rest, name => if n = name then some node else rest.find? name

/-- The folder in which a name stands for a node; all other names keep their meaning. -/
def put : Entries α → Bytes → Node α → Entries α
  | .nil, name, node => .cons name node .nil
  | .cons n old rest, name, node =>
    if n = name then .cons n node rest else .cons n old (rest.put name node)

/-- The folder in which a name stands for nothing. -/
def erase : Entries α → Bytes → Entries α
  | .nil, _ => .nil
  | .cons n node rest, name => if n = name then rest.erase name else .cons n node (rest.erase name)

@[simp] theorem find?_put_self (es : Entries α) (name : Bytes) (node : Node α) :
    (es.put name node).find? name = some node := by
  match es with
  | .nil => simp [put, find?]
  | .cons n old rest =>
    by_cases h : n = name <;> simp [put, find?, h, find?_put_self rest]

theorem find?_put_of_ne (es : Entries α) {name other : Bytes} (node : Node α) (h : other ≠ name) :
    (es.put name node).find? other = es.find? other := by
  match es with
  | .nil => simp [put, find?, Ne.symm h]
  | .cons n old rest =>
    by_cases hn : n = name
    · subst hn
      simp [put, find?, Ne.symm h]
    · simp [put, find?, hn, find?_put_of_ne rest node h]

@[simp] theorem find?_erase_self (es : Entries α) (name : Bytes) :
    (es.erase name).find? name = none := by
  match es with
  | .nil => simp [erase, find?]
  | .cons n old rest =>
    by_cases h : n = name <;> simp [erase, find?, h, find?_erase_self rest]

theorem find?_erase_of_ne (es : Entries α) {name other : Bytes} (h : other ≠ name) :
    (es.erase name).find? other = es.find? other := by
  match es with
  | .nil => simp [erase]
  | .cons n old rest =>
    by_cases hn : n = name
    · subst hn
      simp [erase, find?, Ne.symm h, find?_erase_of_ne rest h]
    · simp [erase, find?, hn, find?_erase_of_ne rest h]

/-- What stands at a place below a folder, given by the names of the folders on the way. -/
def lookup (es : Entries α) : List Bytes → Option (Node α)
  | [] => some (.folder es)
  | name :: place =>
    match es.find? name with
    | none => none
    | some (.folder sub) => sub.lookup place
    | some node => if place = [] then some node else none

/-- The tree in which a node stands at a place; the folders on the way have to be there. -/
def putAt (es : Entries α) : List Bytes → Node α → Entries α
  | [], _ => es
  | [name], node => es.put name node
  | name :: place, node =>
    match es.find? name with
    | some (.folder sub) => es.put name (.folder (sub.putAt place node))
    | _ => es

/-- The tree in which nothing stands at a place. -/
def eraseAt (es : Entries α) : List Bytes → Entries α
  | [] => es
  | [name] => es.erase name
  | name :: place =>
    match es.find? name with
    | some (.folder sub) => es.put name (.folder (sub.eraseAt place))
    | _ => es

end Entries

/-! ## The disk -/

/-- A tree of files and the place of the folder in which relative paths start. -/
structure Disk (α : Type) where
  root : Entries α
  home : List Bytes

namespace Disk

variable {α : Type}

/-- A disk with nothing on it but the folder in which relative paths start. -/
def empty (name : Bytes) : Disk α :=
  ⟨.cons name (.folder .nil) .nil, [name]⟩

/-- The greatest length of a name. -/
def maxNameLength : Nat := 255

/-- The least length that a path must not have. -/
def pathLengthLimit : Nat := 4096

/-- The place that one reaches from the folder at `here` by the given steps.  All of it but the last
name is sure to be there, and to be a folder.  A link is followed, up to `links` times, and one at
the end only if `follow` says so. -/
def walk (root : Entries α) (follow : Bool) (links : Nat) (here steps : List Bytes) :
    Except DiskError (List Bytes) :=
  match steps with
  | [] => .ok here
  | step :: rest =>
    if step = [Path.dot] then walk root follow links here rest
    else if step = [Path.dot, Path.dot] then walk root follow links here.dropLast rest
    else if maxNameLength < step.length then .error .nameTooLong
    else
      let there := here ++ [step]
      match root.lookup there with
      | some (.folder _) => walk root follow links there rest
      | some (.link target) =>
        if rest = [] ∧ follow = false then .ok there
        else match links with
          | 0 => .error .tooManyLinks
          | links + 1 =>
            walk root follow links (if target.isAbsolute then [] else here) (target.steps ++ rest)
      | some (.file _) => if rest = [] then .ok there else .error .notFolder
      | none => if rest = [] then .ok there else .error .notFound
termination_by (links, steps.length)

/-- How many links may be followed on one way. -/
def maxLinks : Nat := 40

/-- The place that a path names.  The empty path names none, nor does one that is too long or has a
zero among its bytes. -/
def locate (d : Disk α) (follow : Bool) (p : Path) : Except DiskError (List Bytes) :=
  if 0 ∈ p.bytes then .error .strayNul
  else if p.bytes = [] then .error .notFound
  else if pathLengthLimit ≤ p.bytes.length then .error .nameTooLong
  else walk d.root follow maxLinks (if p.isAbsolute then [] else d.home) p.steps

/-- What a path names. -/
def node (d : Disk α) (follow : Bool) (p : Path) : Except DiskError (Node α) := do
  let place ← d.locate follow p
  match d.root.lookup place with
  | some n => .ok n
  | none => .error .notFound

/-- Whether a path names a folder, perhaps through links. -/
def isFolder (d : Disk α) (p : Path) : Bool :=
  match d.node true p with
  | .ok (.folder _) => true
  | _ => false

/-- What the file that a path names holds. -/
def read (d : Disk α) (p : Path) : Except DiskError α := do
  match ← d.node true p with
  | .file contents => .ok contents
  | .folder _ => .error .isFolder
  | .link _ => .error .tooManyLinks

end Disk
end Fonoteca
