import Fonoteca.Store.Address
import Fonoteca.Text.Like

/-!
# How a database is opened

Before the database opens a file it looks at the name once more.  A name that begins with `file:` is
a location: it may have an authority in front and options behind, and its bytes may be percent
encoded.  All other names are paths.

* `Opening` is what the database is to open, and what may be done with it.
* `Address.opening` is the opening that an address asks for.
-/

set_option autoImplicit false

namespace Fonoteca

/-- What may be done with the file of a database. -/
inductive Access where
  | read
  | write
  | create
  deriving DecidableEq, Repr

namespace Access

/-- An access allows those of lower rank. -/
def rank : Access → Nat
  | .read => 0
  | .write => 1
  | .create => 2

/-- The access that an option names. -/
def named? (name : String) : Option Access :=
  if name = "ro" then some .read
  else if name = "rw" then some .write
  else if name = "rwc" then some .create
  else none

end Access

/-- What the database is to open. -/
structure Opening where
  path : Path
  access : Access
  inMemory : Bool := false
  /-- Whether nobody else is to change the file meanwhile; it is only read then. -/
  immutable : Bool := false
  /-- Whether the file is locked while it is in use. -/
  locks : Bool := true
  /-- The name of the way to reach files. -/
  system : String := "unix"
  deriving DecidableEq, Repr

namespace Opening

/-! ## Options -/

/-- The words that mean yes. -/
def affirmatives : List String := ["on", "true", "yes"]

/-- The number at the front of some characters, which may be hexadecimal behind `0x`.  One that is
greater than `Text.Numeral.int32Max` counts as 0. -/
def numberInFront (cs : List Char) : Nat :=
  let hex := (cs.drop 2).takeWhile fun c => (Text.Numeral.hexValue? c).isSome
  let n :=
    if (cs.take 2 = ['0', 'x'] ∨ cs.take 2 = ['0', 'X']) ∧ hex ≠ [] then
      hex.foldl (fun n c => 16 * n + (Text.Numeral.hexValue? c).getD 0) 0
    else Text.Numeral.value (cs.takeWhile Char.isDigit)
  if n ≤ Text.Numeral.int32Max.toNat then n else 0

/-- Whether the value of an option means yes: it is one of the words, or a number of which the last
eight bits are not all zero. -/
def isYes (value : String) : Bool :=
  if (value.toList.head?.map Char.isDigit).getD false then
    numberInFront value.toList % 256 != 0
  else affirmatives.contains (Text.asciiLower value)

/-- Whether the first option of a name means yes. -/
def isSet (options : List (String × String)) (name : String) : Bool :=
  ((options.lookup name).map isYes).getD false

/-- The opening with one more option of those that replace each other. -/
def withOption (o : Opening) : String × String → Except Fault Opening
  | ("vfs", value) => .ok { o with system := value }
  | ("cache", value) =>
    if value = "private" ∨ value = "shared" then .ok o else .error (.noSuchMode "cache" value)
  | ("mode", value) =>
    if value = "memory" then .ok { o with access := .write, inMemory := true }
    else match Access.named? value with
      | none => .error (.noSuchMode "access" value)
      | some access =>
        if o.inMemory = false ∧ o.access.rank < access.rank then .error (.modeNotAllowed value)
        else .ok { o with access, inMemory := false }
  | _ => .ok o

/-- The opening with some options. -/
def withOptions (o : Opening) (options : List (String × String)) : Except Fault Opening :=
  options.foldlM withOption
    { o with immutable := isSet options "immutable", locks := !isSet options "nolock" }

/-! ## Locations -/

/-- The bytes of a part of a location; a zero ends them. -/
def decodePart (cs : List Char) : Bytes :=
  (Text.Percent.decode cs).takeWhile (· ≠ 0)

/-- The options that a text spells; those without a name are passed over. -/
def options (cs : List Char) : List (String × String) :=
  (Text.Percent.split '&' cs).filterMap fun piece =>
    let name := decodePart (piece.takeWhile (· ≠ '='))
    let value := decodePart ((piece.dropWhile (· ≠ '=')).drop 1)
    if name = [] then none
    else some (Text.Utf8.decodeLossy name, Text.Utf8.decodeLossy value)

/-- What follows the authority of a location, which has to be this machine. -/
def withoutAuthority : List Char → Except Fault (List Char)
  | '/' :: '/' :: cs =>
    let authority := String.ofList (cs.takeWhile (· ≠ '/'))
    if authority = "" ∨ authority = "localhost" then .ok (cs.dropWhile (· ≠ '/'))
    else .error (.badAuthority authority)
  | cs => .ok cs

/-- The opening of a location.  A `#` ends it. -/
def atLocation (o : Opening) (location : List Char) : Except Fault Opening := do
  let cs := (← withoutAuthority location).takeWhile (· ≠ '#')
  let o := { o with path := ⟨decodePart (cs.takeWhile (· ≠ '?'))⟩ }
  o.withOptions (options ((cs.dropWhile (· ≠ '?')).drop 1))

end Opening

/-! ## Addresses -/

namespace Address

/-- Why a name with a zero in it is refused. -/
def strayZero : String := "filename passed to SQLite must not contain nul bytes"

/-- The name of a way to reach files as it is passed on: a `+` stands for a space, and a zero ends
it. -/
def systemName (name : String) : String :=
  String.ofList ((name.toList.takeWhile (· ≠ '\x00')).map fun c => if c = ' ' then '+' else c)

/-- The opening that an address asks for, when a missing file is to be made or not.  Names of
addresses that say how to reach the file are paths throughout. -/
def opening (a : Address) (creating : Bool) : Except Fault Opening :=
  let access : Access := if a.readOnly then .read else if creating then .create else .write
  let path := Path.ofString a.name
  let o : Opening := { path, access, inMemory := a.inMemory }
  if a.immutable ∨ a.system.isSome then
    .ok { o with
      path := ⟨path.bytes.takeWhile (· ≠ 0)⟩
      immutable := a.immutable
      system := (a.system.map systemName).getD o.system }
  else if 0 ∈ path.bytes then .error (.disconnected strayZero)
  else match a.name.toList with
    | 'f' :: 'i' :: 'l' :: 'e' :: ':' :: location => o.atLocation location
    | _ => .ok o

end Address
end Fonoteca
