import Fonoteca.Text.Utf8

/-!
# Paths

A path is a sequence of bytes in which `/` separates names.  Repeated and trailing slashes, and the
name `.` anywhere but at the front, say nothing; the functions here see through them, and keep the
spelling of everything else.

* `Path.parent?` is the folder that holds what a path names, `Path.fileName?` its last name.
* `Path.stem?` and `Path.extension?` divide the last name at its last dot, `Path.withExtension` puts
  another extension in place.
* `Path.join` goes from a folder to something below it.
* `Path.steps` lists the names to walk through from the folder in which a path starts.
-/

set_option autoImplicit false

namespace Fonoteca

/-- A path of the file tree, as bytes. -/
structure Path where
  bytes : Bytes
  deriving DecidableEq, Repr, Inhabited

namespace Path

/-- The separator `/`. -/
def slash : UInt8 := 0x2F

/-- The byte of the name `.`. -/
def dot : UInt8 := 0x2E

/-- The path that a text spells. -/
def ofString (s : String) : Path :=
  ⟨Text.Utf8.encode s⟩

/-- The text of a path, with U+FFFD for what is not UTF-8. -/
def display (p : Path) : String :=
  Text.Utf8.decodeLossy p.bytes

/-- The text of a path that is UTF-8. -/
def toString? (p : Path) : Option String :=
  Text.Utf8.decode? p.bytes

/-- Whether a path starts at the root of the tree. -/
def isAbsolute (p : Path) : Bool :=
  p.bytes.head? == some slash

/-! ## Front and body -/

/-- The part of a path that stands for where it starts: a `/`, or a `.` that is a name by itself. -/
def front (p : Path) : Bytes :=
  match p.bytes with
  | [] => []
  | b :: rest =>
    if b = slash then [slash]
    else if b = dot ∧ (rest.head?.getD slash) = slash then [dot]
    else []

/-- The part of a path behind its front. -/
def body (p : Path) : Bytes :=
  p.bytes.drop p.front.length

/-- A body, read backwards, without the names at its end that say nothing: empty ones and `.`. -/
def trimBody (rev : Bytes) : Bytes :=
  let name := rev.takeWhile (· != slash)
  if name = [] ∨ name = [dot] then
    match _h : rev.dropWhile (· != slash) with
    | [] => []
    | _ :: rest => trimBody rest
  else rev
termination_by rev.length
decreasing_by
  have hle : (rev.dropWhile (· != slash)).length ≤ rev.length :=
    (List.dropWhile_sublist _).length_le
  rw [_h, List.length_cons] at hle
  omega

/-- The last name of a path, and the body before it with the separator, if the path has a name. -/
def lastName? (p : Path) : Option (Bytes × Bytes) :=
  match trimBody p.body.reverse with
  | [] => none
  | b :: rest =>
    let rev := b :: rest
    some ((rev.dropWhile (· != slash)).reverse, (rev.takeWhile (· != slash)).reverse)

/-- Bytes cut at every slash. -/
def segments : Bytes → List Bytes
  | [] => [[]]
  | b :: bs =>
    if b = slash then [] :: segments bs
    else match segments bs with
      | [] => [[b]]
      | segment :: rest => (b :: segment) :: rest

theorem segments_ne_nil (bs : Bytes) : segments bs ≠ [] := by
  fun_induction segments bs <;> simp

/-- Whether two paths say the same: they start at one place and go through the same names. -/
def sameAs (p q : Path) : Bool :=
  p.front = q.front ∧ names p = names q
where
  /-- The names of a path that say something. -/
  names (p : Path) : List Bytes :=
    (segments p.body).filter fun name => name ≠ [] ∧ name ≠ [dot]

/-! ## The folder and the name -/

/-- The folder that holds what a path names.  The root and the empty path have none. -/
def parent? (p : Path) : Option Path :=
  match p.lastName? with
  | some (before, _) => some ⟨p.front ++ (trimBody (before.reverse.drop 1)).reverse⟩
  | none => if p.front = [dot] then some ⟨[]⟩ else none

/-- The last name of a path, unless it is `..`. -/
def fileName? (p : Path) : Option Bytes :=
  match p.lastName? with
  | some (_, name) => if name = [dot, dot] then none else some name
  | none => none

/-- A name divided at its last dot.  A dot in front divides nothing. -/
def divide (name : Bytes) : Bytes × Option Bytes :=
  let rev := name.reverse
  let after := rev.takeWhile (· != dot)
  match rev.dropWhile (· != dot) with
  | [] => (name, none)
  | _ :: before => if before = [] then (name, none) else (before.reverse, some after.reverse)

/-- The last name without its extension. -/
def stem? (p : Path) : Option Bytes :=
  p.fileName?.map fun name => (divide name).1

/-- What follows the last dot of the last name. -/
def extension? (p : Path) : Option Bytes :=
  p.fileName?.bind fun name => (divide name).2

/-- The path in which an extension follows the first part of the last name; a path without a last
name stays as it is. -/
def putExtension (p : Path) (extension : String) : Path :=
  match p.lastName?, p.stem? with
  | some (before, _), some stem =>
    ⟨p.front ++ before ++ stem ++ dot :: Text.Utf8.encode extension⟩
  | _, _ => p

/-- The path with another extension.  The old one is cut off the end, and what is left has to have a
last name. -/
def withExtension (p : Path) (extension : String) : Path :=
  let cut := (p.extension?.getD []).length
  putExtension ⟨p.bytes.take (p.bytes.length - cut)⟩ extension

/-- The path and the folders that hold it, the nearest first. -/
def ancestors (p : Path) : List Path :=
  go (p.bytes.length + 1) p
where
  /-- As many of the ancestors as the count allows. -/
  go : Nat → Path → List Path
    | 0, _ => []
    | n + 1, p => p :: (match p.parent? with
      | some q => go n q
      | none => [])

/-! ## Going down -/

/-- What is called `name` in the folder `p`.  An absolute name starts afresh. -/
def join (p : Path) (name : Bytes) : Path :=
  if name.head? = some slash ∨ p.bytes = [] then ⟨name⟩
  else if p.bytes.getLast? == some slash then ⟨p.bytes ++ name⟩
  else ⟨p.bytes ++ slash :: name⟩

/-- The path below `p` that goes through the given names. -/
def joinAll (p : Path) (names : List Bytes) : Path :=
  names.foldl join p

/-- What a text names in the folder `p`. -/
def joinString (p : Path) (s : String) : Path :=
  p.join (Text.Utf8.encode s)

/-- Whether a slash stands at the end of a path. -/
def endsInSlash (p : Path) : Bool :=
  p.bytes.getLast? == some slash

/-- The names to walk through from where a path starts.  A slash at the end asks for a folder, as
the name `.` does. -/
def steps (p : Path) : List Bytes :=
  (segments p.bytes).filter (· ≠ []) ++ (if p.endsInSlash then [[dot]] else [])

/-- The path without the slashes at its end. -/
def withoutSlashes (p : Path) : Path :=
  match p.bytes.reverse.dropWhile (· == slash) with
  | [] => ⟨p.bytes.take 1⟩
  | rev => ⟨rev.reverse⟩

/-- Whether a path ends in a step that is no name, `.` or `..`. -/
def endsInDots (p : Path) : Bool :=
  match p.withoutSlashes.steps.getLast? with
  | some step => step = [dot] || step = [dot, dot]
  | none => false

end Path
end Fonoteca
