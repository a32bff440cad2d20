import Fonoteca.Query.Basic
import Fonoteca.Text.Blank

/-!
# Reading the search bar

Text that begins with `*~*` is a structured query: `||` separates its clauses and `&&` the terms of
a clause.  A piece that is no term is dropped, and so is a clause without terms.  Nothing is an
error: any other text is looked for as it stands.

* `Query.parse?` reads a structured query; no query is left when no term is recognised.
* `Search.parse` decides between a filter and a plain search.
-/

set_option autoImplicit false

namespace Fonoteca

/-! ## Terms -/

/-- The tags and symbols that begin a term, in the order in which they are tried. -/
def Term.rules : List (Field × Operator) :=
  Field.all.flatMap fun f => f.operators.map fun op => (f, op)

/-- The term of one rule that a text spells, if it begins as the rule demands. -/
def Term.ofRule? (cs : List Char) (rule : Field × Operator) : Option Term :=
  match (rule.1.tag.toList ++ rule.2.symbol.toList).isPrefixOf? cs with
  | some value => some ⟨rule.1, rule.2, String.ofList (Text.trimChars value)⟩
  | none => none

/-- The term that a text spells, if it is one; the first rule that fits decides. -/
def Term.parse? (cs : List Char) : Option Term :=
  Term.rules.findSome? (Term.ofRule? (Text.trimChars cs))

/-! ## Clauses -/

/-- The pieces of a text between two equal characters in a row, from left to right. -/
def splitTwice (sep : Char) : List Char → List (List Char)
  | [] => [[]]
  | [c] => [[c]]
  | c :: d :: cs =>
    if c = sep ∧ d = sep then [] :: splitTwice sep cs
    else match splitTwice sep (d :: cs) with
      | [] => [[c]]
      | piece :: pieces => (c :: piece) :: pieces

theorem splitTwice_ne_nil (sep : Char) (cs : List Char) : splitTwice sep cs ≠ [] := by
  fun_induction splitTwice sep cs <;> simp

namespace Query

/-- The terms of one clause. -/
def parseClause (cs : List Char) : List Term :=
  (splitTwice '&' cs).filterMap Term.parse?

/-- The query that a text spells, if it begins with the marker and holds a term. -/
def parse? (s : String) : Option Query :=
  match marker.toList.isPrefixOf? s.toList with
  | none => none
  | some cs =>
    let clauses := ((splitTwice '|' cs).map parseClause).filter (· ≠ [])
    if clauses = [] then none else some ⟨clauses⟩

/-- Whether a text begins with the marker of a structured query. -/
def isMarked (s : String) : Bool :=
  marker.toList.isPrefixOf s.toList

end Query

/-! ## The search bar -/

/-- What the text in the search bar asks for. -/
inductive Search where
  /-- The tracks that a filter admits. -/
  | filter (f : Filter)
  /-- The tracks in which a text occurs. -/
  | plain (text : String)
  deriving DecidableEq, Repr, Inhabited

namespace Search

/-- Whether a search goes by a filter. -/
def isFilter : Search → Bool
  | .filter _ => true
  | .plain _ => false

/-- The search that a text asks for.  A text with the marker but no term finds everything. -/
def parse (s : String) : Search :=
  if Query.isMarked s then
    match Query.parse? s with
    | some q => .filter q.toFilter
    | none => .plain ""
  else .plain s

end Search
end Fonoteca
