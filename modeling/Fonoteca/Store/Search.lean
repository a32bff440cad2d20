import Fonoteca.Query.Parser
import Fonoteca.Store.Condition

/-!
# Searching the tables

Both kinds of search give the numbers of the tracks they find, in ascending order.  They are refused
where the database comes to a pattern that is too long for it.  Which comparisons of a filter it
makes is its own choice as far as nothing depends on them.

* `Tables.matching` finds the tracks that a filter admits; a filter whose text is no condition is
  refused.
* `Tables.containing` finds the tracks in whose artist, album, title or genre a text occurs.
* `Tables.search` does what the text in the search bar asks for.
-/

set_option autoImplicit false

namespace Fonoteca

/-- What the database does with the comparisons of a filter on which nothing depends.  It is free to
compare in any order, and with one table before it comes to the next. -/
inductive Plan where
  /-- It never makes them. -/
  | sparing
  /-- It makes them too, were it before it looks at the rows. -/
  | lavish
  deriving DecidableEq, Repr, Inhabited

namespace Tables

/-- Whether the database comes to a pattern that is too long.  A comparison that stands alone is made
for each row and never otherwise, whatever the plan. -/
def meetsOverlong (t : Tables) (plan : Plan) (condition : Condition) (binds : List Bind) : Bool :=
  t.joined.any (condition.hinges · binds) ||
    (plan == .lavish && decide (1 < condition.flatten.length) && condition.hasOverlong binds)

/-- The numbers of the tracks that a filter admits. -/
def matching (t : Tables) (plan : Plan) (f : Filter) : Except Fault (List Int) := do
  let condition ← Condition.read f.clause
  if t.meetsOverlong plan condition f.binds then .error .overlongPattern
  else .ok ((t.joined.filter fun r => condition.holds r f.binds).map (·.id))

/-- Whether the artist, the album, the title or the genre of a row matches a pattern. -/
def mentions (r : JoinedRow) (pattern : String) : Bool :=
  [r.artist, r.album, r.title, r.genre].any fun s => Text.like s pattern

/-- The numbers of the tracks in which a text occurs. -/
def containing (t : Tables) (text : String) : Except Fault (List Int) :=
  let pattern := Text.wildcard (Text.trim text)
  if Text.isOverlong pattern = true ∧ t.joined ≠ [] then .error .overlongPattern
  else .ok ((t.joined.filter fun r => mentions r pattern).map (·.id))

/-- The numbers of the tracks that the text in the search bar asks for. -/
def search (t : Tables) (plan : Plan) (text : String) : Except Fault (List Int) :=
  match Search.parse text with
  | .filter f => t.matching plan f
  | .plain s => t.containing s

end Tables
end Fonoteca
