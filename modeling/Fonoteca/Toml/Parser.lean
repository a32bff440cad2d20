import Fonoteca.Toml.Number
import Fonoteca.Toml.Text

/-!
# Reading TOML

A document is read line by line: blank lines and comments, headers of tables, and names with their
values.  Lists and closed tables may be nested, up to a depth.

* `keys` reads the path of names to the left of a value, `value` a value.
* `parse?` reads a document; any error in it makes the whole unreadable.
-/

set_option autoImplicit false

namespace Fonoteca
namespace Toml

/-! ## Blanks and comments -/

/-- The characters without spaces and tabs in front. -/
def dropBlanks (cs : List Char) : List Char :=
  cs.dropWhile fun c => c == ' ' || c == '\t'

/-- The characters behind a line break. -/
def lineBreak? : List Char → Option (List Char)
  | '\n' :: cs => some cs
  | '\r' :: '\n' :: cs => some cs
  | _ => none

/-- The characters without a comment in front. -/
def dropComment : List Char → List Char
  | '#' :: cs => cs.dropWhile isPlain
  | cs => cs

/-- The characters of the next line, if nothing but blanks and a comment is left of this one. -/
def lineEnd? (cs : List Char) : Option (List Char) :=
  match dropComment (dropBlanks cs) with
  | [] => some []
  | cs => lineBreak? cs

/-- The characters without blanks, line breaks and comments in front, where `inComment` tells
whether they begin in a comment. -/
def dropPadding : Bool → List Char → List Char
  | _, [] => []
  | true, c :: cs =>
    if c = '\n' then dropPadding false cs
    else if c = '\r' ∧ cs.head? = some '\n' then dropPadding true cs
    else if isPlain c then dropPadding true cs
    else c :: cs
  | false, c :: cs =>
    if c = ' ' ∨ c = '\t' ∨ c = '\n' then dropPadding false cs
    else if c = '\r' ∧ cs.head? = some '\n' then dropPadding false cs
    else if c = '#' then dropPadding true cs
    else c :: cs

/-! ## Names -/

/-- Whether a character may stand in a name without quotes. -/
def isNameChar (c : Char) : Bool :=
  c.isAlphanum || c == '-' || c == '_'

/-- Reads one name. -/
def name (cs : List Char) : Reading :=
  match singleText cs with
  | some r => some r
  | none =>
    let own := cs.takeWhile isNameChar
    if own = [] then none else some (own, cs.drop own.length)

/-- How many names a path may have. -/
def maxNames : Nat := 79

/-- Reads a path of at most so many names, with points between them. -/
def keysUpTo : Nat → List Char → Option (List String × List Char)
  | 0, _ => none
  | n + 1, cs => do
    let (own, rest) ← name (dropBlanks cs)
    match dropBlanks rest with
    | '.' :: rest => (keysUpTo n rest).map fun r => (String.ofList own :: r.1, r.2)
    | rest => some ([String.ofList own], rest)

/-- Reads a path of names. -/
def keys (cs : List Char) : Option (List String × List Char) :=
  keysUpTo maxNames cs

/-! ## Values -/

/-- Reads the items of a list up to its end, at most `fuel` of them. -/
def items (item : List Char → Option (Value × List Char)) :
    Nat → List Char → Option (List Value × List Char)
  | 0, _ => none
  | fuel + 1, cs =>
    match dropPadding false cs with
    | ']' :: rest => some ([], rest)
    | cs => do
      let (v, rest) ← item cs
      match dropPadding false rest with
      | ',' :: rest => (items item fuel rest).map fun r => (v :: r.1, r.2)
      | ']' :: rest => some ([v], rest)
      | _ => none

/-- Reads a path of names, the sign `=`, and a value. -/
def entry (item : List Char → Option (Value × List Char)) (cs : List Char) :
    Option ((List String × Value) × List Char) := do
  let (path, rest) ← keys cs
  let (v, rest) ← item (dropBlanks (← after '=' rest))
  return ((path, v), rest)

/-- Reads the entries of a closed table up to its end, at most `fuel` of them. -/
def entries (item : List Char → Option (Value × List Char)) :
    Nat → List Char → Option (List (List String × Value) × List Char)
  | 0, _ => none
  | fuel + 1, cs => do
    let (e, rest) ← entry item cs
    match dropBlanks rest with
    | ',' :: rest => (entries item fuel rest).map fun r => (e :: r.1, r.2)
    | '\x7d' :: rest => some ([e], rest)
    | _ => none

/-- Reads a closed table, from behind its opening brace on. -/
def closedTable (item : List Char → Option (Value × List Char)) (cs : List Char) :
    Option (Value × List Char) :=
  match dropBlanks cs with
  | '\x7d' :: rest => some (.closed [], rest)
  | _ => do
    let (es, rest) ← entries item cs.length cs
    let t ← Table.addEntries [] es
    return (.closed t, rest)

/-- Reads a value that is neither a list nor a table. -/
def scalar (cs : List Char) : Option (Value × List Char) :=
  match anyText cs with
  | some (s, rest) => some (.text (String.ofList s), rest)
  | none =>
    match cs with
    | 't' :: 'r' :: 'u' :: 'e' :: rest => some (.flag true, rest)
    | 'f' :: 'a' :: 'l' :: 's' :: 'e' :: rest => some (.flag false, rest)
    | cs => ((date cs).orElse fun _ => real cs).orElse fun _ => whole cs

/-- Reads a value in which lists and tables are nested at most so deep. -/
def value : Nat → List Char → Option (Value × List Char)
  | 0, cs =>
    match cs with
    | '[' :: _ => none
    | '\x7b' :: _ => none
    | cs => scalar cs
  | depth + 1, cs =>
    match cs with
    | '[' :: rest => (items (value depth) (rest.length + 1) rest).map fun r => (.array r.1, r.2)
    | '\x7b' :: rest => closedTable (value depth) rest
    | cs => scalar cs

/-- How deep lists and tables may be nested. -/
def maxDepth : Nat := 79

/-! ## Documents -/

/-- Reads the header of a table, from behind its opening bracket on. -/
def header (cs : List Char) : Option (Line × List Char) :=
  match cs with
  | '[' :: cs => do
    let (path, rest) ← keys cs
    let rest ← after ']' (← after ']' rest)
    return (.header ⟨path, true⟩, rest)
  | cs => do
    let (path, rest) ← keys cs
    let rest ← after ']' rest
    return (.header ⟨path, false⟩, rest)

/-- Reads what a line holds, if it is a header or an entry. -/
def line (cs : List Char) : Option (Line × List Char) :=
  match cs with
  | '[' :: cs => header cs
  | cs => (entry (value maxDepth) cs).map fun r => (.entry r.1.1 r.1.2, r.2)

/-- Reads at most so many lines. -/
def linesUpTo : Nat → List Char → Option (List Line)
  | 0, cs => if cs = [] then some [] else none
  | fuel + 1, cs =>
    match dropComment (dropBlanks cs) with
    | [] => some []
    | cs =>
      match lineBreak? cs with
      | some rest => linesUpTo fuel rest
      | none => do
        let (l, rest) ← line (dropBlanks cs)
        return l :: (← linesUpTo fuel (← lineEnd? rest))

/-- The characters without a byte order mark in front. -/
def dropMark : List Char → List Char
  | '\uFEFF' :: cs => cs
  | cs => cs

/-- The table that a document describes, if it can be read. -/
def parse? (s : String) : Option Table := do
  let lines ← linesUpTo (s.toList.length + 1) (dropMark s.toList)
  Table.ofLines? lines

end Toml
end Fonoteca
