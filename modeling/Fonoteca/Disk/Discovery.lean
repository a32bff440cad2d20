import Fonoteca.Disk.Basic

/-!
# Finding the files below a folder

A scan begins with the list of the files to read: the regular files at or below a root whose name
ends in a given text.  The tree is walked depth first, and the names in a folder are visited in the
order of their bytes.  Links below the root are not followed and are no files; a root that is a link
to a folder is walked.  A folder that cannot be opened is passed over, with all that lies below it;
here this can only be for the length of its path.

* `Node.files` lists the places of the files below a node, in that order, and `Disk.waysToFiles` those
  below a root.
* `Disk.discover` keeps those whose name ends as asked, as paths that begin with the root.
-/

set_option autoImplicit false

namespace Fonoteca

variable {α : Type}

/-- A folder's names with what was found under each, in the order of the names' bytes, as one list
of places. -/
def inNameOrder (found : List (Bytes × List (List Bytes))) : List (List Bytes) :=
  (found.mergeSort fun a b => a.1 ≤ b.1).flatMap fun e => e.2.map (e.1 :: ·)

mutual

/-- The places of the files at or below a node, as the names that lead there. -/
def Node.files : Node α → List (List Bytes)
  | .file _ => [[]]
  | .link _ => []
  | .folder es => inNameOrder es.files

/-- For each name in a folder, the places of the files at or below it. -/
def Entries.files : Entries α → List (Bytes × List (List Bytes))
  | .nil => []
  | .cons name node rest => (name, node.files) :: rest.files

end

/-- The ending of the names of the files to look for, unless something else is asked for. -/
def defaultExtension : String := ".mp3"

namespace Disk

/-- Whether a name ends in the given bytes. -/
def endsWith (name suffix : Bytes) : Bool :=
  suffix.isSuffixOf name

/-- The last name on a way below `root`; the way of no name ends at the root itself. -/
def lastName (root : Path) (names : List Bytes) : Bytes :=
  names.getLast?.getD (root.fileName?.getD root.bytes)

/-- Whether the folder at the end of a way below `root` can be opened. -/
def opens (root : Path) (names : List Bytes) : Bool :=
  (root.joinAll names).bytes.length < pathLengthLimit

/-- The ways from a root to the files at or below it. -/
def waysToFiles (d : Disk α) (root : Path) : List (List Bytes) :=
  match d.node false root with
  | .ok (.link _) => match d.node true root with
    | .ok (.folder es) => (Node.folder es).files
    | _ => []
  | .ok n => n.files
  | .error _ => []

/-- The files at or below a root whose name ends in the given text. -/
def discover (d : Disk α) (root : Path) (extension : String) : List Path :=
  ((d.waysToFiles root).filter fun names => opens root names.dropLast &&
    endsWith (lastName root names) (Text.Utf8.encode extension)).map root.joinAll

end Disk
end Fonoteca
