import Fonoteca.Path
import Fonoteca.Store.Error
import Fonoteca.Text.Percent
import Fonoteca.Text.Quoted

/-!
# Addresses of the library

The tables of the library are kept in a file, which the store names by an address: the text
`sqlite:` and the name of the file, perhaps with options behind a question mark.

* `Database.address` is the address of a path.
* `Address` is what an address says, `Address.parse?` reads one.
-/

set_option autoImplicit false

namespace Fonoteca

namespace Database

/-- What an address begins with. -/
def scheme : String := "sqlite:"

/-- The file of the library when no path is given. -/
def defaultName : String := "rolas.db"

/-- The address of a path. -/
def address (path : Option Path) : String :=
  scheme ++ (path.map Path.display).getD defaultName

end Database

/-- What an address says. -/
structure Address where
  /-- The name of the file. -/
  name : String
  /-- Whether the tables are to be in memory. -/
  inMemory : Bool := false
  /-- Whether the tables are only to be read. -/
  readOnly : Bool := false
  /-- Whether the file may be made each time. -/
  creates : Bool := false
  /-- Whether nobody else is to change the file meanwhile. -/
  immutable : Bool := false
  /-- The name of a way to reach files. -/
  system : Option String := none
  deriving DecidableEq, Repr, Inhabited

namespace Address

/-- The characters without any number of occurrences of a text in front. -/
def dropRepeated (text cs : List Char) : List Char :=
  if _h : text ≠ [] ∧ text.isPrefixOf cs then dropRepeated text (cs.drop text.length) else cs
termination_by cs.length
decreasing_by
  have hp := (List.isPrefixOf_iff_prefix.1 _h.2).length_le
  have hl := List.length_pos_iff.2 _h.1
  simp only [List.length_drop]
  omega

/-- The failure of an option with a value that it does not have. -/
def badValue (key value : String) : Fault :=
  .badAddress ("unknown value " ++ Text.quoted value ++ " for `" ++ key ++ "`")

/-- What an address says with one more option. -/
def withOption (a : Address) : String × String → Except Fault Address
  | ("mode", value) =>
    if value = "ro" then .ok { a with readOnly := true }
    else if value = "rw" then .ok a
    else if value = "rwc" then .ok { a with creates := true }
    else if value = "memory" then .ok { a with inMemory := true }
    else .error (badValue "mode" value)
  | ("cache", value) =>
    if value = "private" ∨ value = "shared" then .ok a else .error (badValue "cache" value)
  | ("immutable", value) =>
    if value = "true" ∨ value = "1" then .ok { a with immutable := true }
    else if value = "false" ∨ value = "0" then .ok { a with immutable := false }
    else .error (badValue "immutable" value)
  | ("vfs", value) => .ok { a with system := some value }
  | (key, _) =>
    .error (.badAddress ("unknown query parameter `" ++ key ++ "` while parsing connection URL"))

/-- The name of tables in memory. -/
def memoryName : String := ":memory:"

/-- The address without options that a text spells. -/
def ofName (cs : List Char) : Except Fault Address :=
  if cs = memoryName.toList then .ok { name := "", inMemory := true }
  else
    let bytes := Text.Percent.decode cs
    match Text.Utf8.decode? bytes with
    | some name => .ok { name }
    | none => .error (.badAddress (((Text.Utf8.fault? bytes).map Text.Utf8.Fault.message).getD ""))

/-- What an address says. -/
def parse? (address : String) : Except Fault Address := do
  let scheme := Database.scheme.toList
  let cs := dropRepeated scheme (dropRepeated (scheme ++ ['/', '/']) address.toList)
  let a ← ofName (cs.takeWhile (· ≠ '?'))
  (Text.Percent.pairs ((cs.dropWhile (· ≠ '?')).drop 1)).foldlM withOption a

end Address
end Fonoteca
