import Fonoteca.Query.Term

/-!
# Queries and filters

A query is a disjunction of clauses, each a conjunction of terms.  For the store it becomes a
filter: the text of a condition with placeholders, and the values for them from left to right.

* `Query.toFilter` writes a query as a filter.
* `Query.render` writes it in the language of the search bar.
-/

set_option autoImplicit false

namespace Fonoteca

/-- A disjunction of conjunctions of terms. -/
structure Query where
  clauses : List (List Term)
  deriving DecidableEq, Repr, Inhabited

/-- A condition on a row of tracks, with the values for its placeholders from left to right. -/
structure Filter where
  clause : String
  binds : List Bind
  deriving DecidableEq, Repr, Inhabited

namespace Query

/-! ## The filter of a query -/

/-- One clause as a condition: its terms joined by `AND`, between parentheses. -/
def clauseText (ts : List Term) : String :=
  "(" ++ " AND ".intercalate (ts.map Term.predicate) ++ ")"

/-- The filter of a query: its clauses joined by `OR`, and the values of its terms in order. -/
def toFilter (q : Query) : Filter where
  clause := " OR ".intercalate (q.clauses.map clauseText)
  binds := q.clauses.flatten.map Term.bind

/-! ## The text of a query -/

/-- What a structured query begins with. -/
def marker : String := "*~*"

/-- A term as it is written in the search bar. -/
def renderTerm (t : Term) : String :=
  t.field.tag ++ t.op.symbol ++ t.value

/-- A query as it is written in the search bar. -/
def render (q : Query) : String :=
  marker ++ " || ".intercalate (q.clauses.map fun ts => " && ".intercalate (ts.map renderTerm))

end Query
end Fonoteca
