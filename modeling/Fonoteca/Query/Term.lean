import Fonoteca.Text.Like
import Fonoteca.Text.Numeral
import Fonoteca.Text.Quoted

/-!
# Fields, operators and terms

A term of a query compares one field of a track with a value, as in `*YE*<1980`: a tag for the
field, a symbol for the operator, and the value.

* `Field` and `Operator` are the two vocabularies, with `Field.operators` saying which operators a
  field admits.
* `Term.predicate` is the term as a condition on a row of tracks, with a placeholder for the value,
  and `Term.bind` what is put in its place.
-/

set_option autoImplicit false

namespace Fonoteca

/-! ## Fields -/

/-- What a query can ask about. -/
inductive Field where
  | title
  | artist
  | album
  | genre
  | track
  | year
  deriving DecidableEq, Repr, Inhabited

namespace Field

/-- All fields, in the order in which their tags are tried. -/
def all : List Field :=
  [.title, .artist, .album, .genre, .track, .year]

/-- The tag that stands for a field in a query. -/
def tag : Field → String
  | .title => "*TI*"
  | .artist => "*AR*"
  | .album => "*AL*"
  | .genre => "*GE*"
  | .track => "*TR*"
  | .year => "*YE*"

/-- The column of a row that a field is compared with. -/
def column : Field → String
  | .title => "rolas.title"
  | .artist => "performers.name"
  | .album => "albums.name"
  | .genre => "rolas.genre"
  | .track => "rolas.track"
  | .year => "rolas.year"

/-- Whether the column of a field holds numbers. -/
def isNumeric : Field → Bool
  | .track => true
  | .year => true
  | _ => false

end Field

/-! ## Operators -/

/-- How a field is compared with a value. -/
inductive Operator where
  | equal
  | like
  | notEqual
  | notLike
  | less
  | greater
  | notLess
  | notGreater
  deriving DecidableEq, Repr, Inhabited

namespace Operator

/-- The operators that every field admits. -/
def text : List Operator :=
  [.equal, .like, .notEqual, .notLike]

/-- All operators, in the order in which their symbols are tried. -/
def all : List Operator :=
  text ++ [.less, .greater, .notLess, .notGreater]

/-- The symbol that stands for an operator in a query. -/
def symbol : Operator → String
  | .equal => "="
  | .like => "~"
  | .notEqual => "!="
  | .notLike => "!~"
  | .less => "<"
  | .greater => ">"
  | .notLess => "!<"
  | .notGreater => "!>"

/-- Whether an operator looks for the value inside the field. -/
def isSubstring : Operator → Bool
  | .like => true
  | .notLike => true
  | _ => false

/-- What stands in front of the column in the condition of an operator. -/
def before : Operator → String
  | .notEqual => "NOT "
  | .notLike => "NOT "
  | _ => ""

/-- What stands behind the column in the condition of an operator. -/
def after : Operator → String
  | .equal => " = ?"
  | .notEqual => " = ?"
  | .like => " LIKE ? ESCAPE '\\'"
  | .notLike => " LIKE ? ESCAPE '\\'"
  | .less => " < ?"
  | .greater => " > ?"
  | .notLess => " >= ?"
  | .notGreater => " <= ?"

end Operator

/-- The operators that a field admits. -/
def Field.operators (f : Field) : List Operator :=
  if f.isNumeric then Operator.all else Operator.text

/-! ## Terms -/

/-- A value in the place of a placeholder. -/
inductive Bind where
  | text (s : String)
  | integer (n : Int)
  deriving DecidableEq, Repr, Inhabited

/-- A value as messages show it: text between quotes, a number in decimal. -/
def Bind.display : Bind → String
  | .text s => Text.quoted s
  | .integer n => toString n

/-- One comparison of a field with a value. -/
structure Term where
  field : Field
  op : Operator
  value : String
  deriving DecidableEq, Repr, Inhabited

namespace Term

/-- The term as a condition on a row, with `?` for the value. -/
def predicate (t : Term) : String :=
  t.op.before ++ t.field.column ++ t.op.after

/-- What the placeholder of the term stands for.  A value to look for becomes a pattern; a value to
compare a number with becomes a number if it is one of 64 bits. -/
def bind (t : Term) : Bind :=
  if t.op.isSubstring then .text (Text.wildcard t.value)
  else if t.field.isNumeric then
    match Text.Numeral.int64? t.value with
    | some n => .integer n
    | none => .text t.value
  else .text t.value

end Term
end Fonoteca
