/-!
# Values and tables of TOML

A document assigns values to names, and groups them in tables.  Every name may be given a value only
once, and a table may be opened only once; which of the further additions are allowed depends on how
a table came about.

* `Value` are the values, `Table` is a table, `Origin` says how a table came about.
* `Table.addEntry` adds a value under a path of names, `Table.addSection` a table that a header
  opens.
* `Line` are the lines of a document, `Table.ofLines?` is the table that they make up.
-/

set_option autoImplicit false

namespace Fonoteca
namespace Toml

/-! ## Values -/

/-- How a table that is still open to additions came about. -/
inductive Origin where
  /-- It has a header of its own, or is the table of the whole document. -/
  | header
  /-- It lies on the way to a table that has a header. -/
  | passage
  /-- It lies on the way to a value that has a path for a name. -/
  | dotted
  deriving DecidableEq, Repr

/-- A value. -/
inductive Value where
  | text (s : String)
  | whole (n : Int)
  /-- A number that is not whole; which one does not matter here. -/
  | real
  | flag (b : Bool)
  /-- A date or a time; which one does not matter here. -/
  | date
  | array (items : List Value)
  /-- A table that is complete as it stands. -/
  | closed (entries : List (String × Value))
  /-- A table that is open to additions. -/
  | table (origin : Origin) (entries : List (String × Value))
  /-- Tables with one header each. -/
  | tables (items : List (List (String × Value)))

/-- A table: names with their values. -/
abbrev Table := List (String × Value)

namespace Table

/-- The value of a name. -/
def find? (t : Table) (name : String) : Option Value :=
  List.lookup name t

/-- The table in which a name has a value, and all else is as before. -/
def put : Table → String → Value → Table
  | [], name, v => [(name, v)]
  | (n, old) :: t, name, v => if n = name then (n, v) :: t else (n, old) :: put t name v

@[simp] theorem find?_put_self (t : Table) (name : String) (v : Value) :
    (t.put name v).find? name = some v := by
  induction t with
  | nil => simp [put, find?]
  | cons e t ih =>
    obtain ⟨n, old⟩ := e
    by_cases h : n = name
    · simp [put, find?, h]
    · have hn : (name == n) = false := by simpa using Ne.symm h
      rw [put, if_neg h, find?, List.lookup_cons, hn]
      exact ih

/-! ## Reaching into a table -/

/-- Changes the table at the end of a way, from a table of the given origin.  Tables that are
missing on the way are made.  The way to a value (`dotted`) may not lead through a table with a
header. -/
def reach (change : Origin → Table → Option Table) (dotted : Bool) :
    List String → Origin → Table → Option Table
  | [], origin, t => change origin t
  | name :: way, _, t =>
    match t.find? name with
    | none =>
      let fresh := if dotted then Origin.dotted else .passage
      (reach change dotted way fresh []).map fun sub => t ++ [(name, .table fresh sub)]
    | some (.table found sub) =>
      if dotted ∧ found = .header then none
      else (reach change dotted way found sub).map fun sub => t.put name (.table found sub)
    | some (.tables items) =>
      (reach change dotted way .header (items.getLast?.getD [])).map fun sub =>
        t.put name (.tables (items.dropLast ++ [sub]))
    | some _ => none

/-- Adds a value under a path of names.  The name must be new; and the table that holds it must be
one of dotted names if and only if the path has more than one name. -/
def addEntry (t : Table) (path : List String) (v : Value) : Option Table :=
  let way := path.dropLast
  let add (origin : Origin) (t : Table) : Option Table :=
    if origin = .dotted ↔ way = [] then none
    else path.getLast?.bind fun name =>
      if (t.find? name).isSome then none else some (t ++ [(name, v)])
  reach add true way .header t

/-- Adds values under their paths, one after the other. -/
def addEntries (t : Table) (entries : List (List String × Value)) : Option Table :=
  entries.foldlM (fun t e => t.addEntry e.1 e.2) t

/-! ## Headers -/

/-- The header of a table. -/
structure Header where
  path : List String
  /-- Whether the header opens one more of several tables of one name. -/
  several : Bool
  deriving DecidableEq, Repr

/-- Adds the table that a header opens, with its values.  A table of that name may be there only as
a passage to other tables, or as the earlier ones of several. -/
def addSection (t : Table) (header : Header) (entries : List (List String × Value)) :
    Option Table :=
  let add (_ : Origin) (t : Table) : Option Table :=
    header.path.getLast?.bind fun name =>
      match t.find? name, header.several with
      | none, false => (addEntries [] entries).map fun sub => t ++ [(name, .table .header sub)]
      | some (.table .passage known), false =>
        (addEntries known entries).map fun sub => t.put name (.table .header sub)
      | none, true => (addEntries [] entries).map fun sub => t ++ [(name, .tables [sub])]
      | some (.tables items), true =>
        (addEntries [] entries).map fun sub => t.put name (.tables (items ++ [sub]))
      | _, _ => none
  reach add false header.path.dropLast .header t

end Table

/-! ## Documents -/

/-- A line of a document. -/
inductive Line where
  | header (h : Table.Header)
  | entry (path : List String) (v : Value)

/-- The lines before the first header, and each header with the lines that follow it. -/
def sections : List Line → List (List String × Value) ×
    List (Table.Header × List (List String × Value))
  | [] => ([], [])
  | .entry path v :: lines => ((path, v) :: (sections lines).1, (sections lines).2)
  | .header h :: lines => ([], (h, (sections lines).1) :: (sections lines).2)

/-- The table that the lines of a document make up, if they agree with each other. -/
def Table.ofLines? (lines : List Line) : Option Table := do
  let t ← Table.addEntries [] (sections lines).1
  (sections lines).2.foldlM (fun t s => t.addSection s.1 s.2) t

end Toml
end Fonoteca
