import Fonoteca.Disk.Basic

/-!
# Changing the tree of files

Each change either succeeds with a new disk or is refused; only `Disk.makeFolders`, which makes
several folders in turn, may be refused after it has made some.

* `Disk.makeFolder` and `Disk.makeFolders` make a folder, the latter with all that hold it.
* `Disk.write` puts contents into a file, `Disk.rename` moves a file onto a place.
* `Disk.plantFile`, `Disk.plantFolder` and `Disk.plantLink` set up a tree to start from.
-/

set_option autoImplicit false

namespace Fonoteca
namespace Disk

variable {α : Type}

/-- The disk in which a node stands at a place. -/
def putAt (d : Disk α) (place : List Bytes) (n : Node α) : Disk α :=
  { d with root := d.root.putAt place n }

/-- Makes a folder where nothing stands. -/
def makeFolder (d : Disk α) (p : Path) : Except DiskError (Disk α) := do
  let place ← d.locate false p.withoutSlashes
  match d.root.lookup place with
  | some _ => .error .alreadyThere
  | none => .ok (d.putAt place (.folder .nil))

/-- Makes the first of some paths a folder, making the later ones first where they are missing. -/
def makeFirst : List Path → Disk α → Except DiskError Unit × Disk α
  | [], d => (.error .noWholeTree, d)
  | p :: holders, d =>
    if p.bytes = [] then (.ok (), d)
    else match d.makeFolder p with
      | .ok d => (.ok (), d)
      | .error .notFound =>
        match makeFirst holders d with
        | (.error e, d) => (.error e, d)
        | (.ok (), d) =>
          match d.makeFolder p with
          | .ok d => (.ok (), d)
          | .error e => (if d.isFolder p then .ok () else .error e, d)
      | .error e => (if d.isFolder p then .ok () else .error e, d)

/-- Makes a folder together with the folders that hold it; those that are there stay. -/
def makeFolders (d : Disk α) (p : Path) : Except DiskError Unit × Disk α :=
  makeFirst p.ancestors d

/-- Puts contents into the file that a path names, which need not be there yet. -/
def write (d : Disk α) (p : Path) (contents : α) : Except DiskError (Disk α) := do
  let place ← d.locate true p
  match d.root.lookup place with
  | some (.folder _) => .error .isFolder
  | _ => .ok (d.putAt place (.file contents))

/-- Moves the file at one path to another, in place of a file or link that stands there.  The other
path has to end in a name, without a slash behind it. -/
def rename (d : Disk α) (source target : Path) : Except DiskError (Disk α) := do
  let fromPlace ← d.locate false source
  let toPlace ← d.locate false target.withoutSlashes
  if target.endsInDots then .error .busy
  else match d.root.lookup fromPlace with
    | none => .error .notFound
    | some n =>
      if target.endsInSlash then .error .notFolder
      else match d.root.lookup toPlace with
        | some (.folder _) => .error .isFolder
        | _ =>
          if fromPlace = toPlace then .ok d
          else .ok { d with root := (d.root.eraseAt fromPlace).putAt toPlace n }

/-! ## Setting up a tree -/

/-- The disk with the folders that hold what a path names. -/
def withHolders (d : Disk α) (p : Path) : Disk α :=
  match p.parent? with
  | some q => (d.makeFolders q).2
  | none => d

/-- The disk with a file, in place of one that was there. -/
def plantFile (d : Disk α) (p : Path) (contents : α) : Disk α :=
  let d := d.withHolders p
  match d.write p contents with
  | .ok d => d
  | .error _ => d

/-- The disk with a folder. -/
def plantFolder (d : Disk α) (p : Path) : Disk α :=
  (d.makeFolders p).2

/-- The disk with a symbolic link. -/
def plantLink (d : Disk α) (p target : Path) : Disk α :=
  let d := d.withHolders p
  match d.locate false p with
  | .ok place => if (d.root.lookup place).isNone then d.putAt place (.link target) else d
  | .error _ => d

end Disk
end Fonoteca
