import Fonoteca.Query.Term
import Fonoteca.Store.Tables
import Fonoteca.Text.Amount

/-!
# Conditions on the tracks

The store gets a filter as text, with placeholders for values, and reads it as a condition: groups
of comparisons in parentheses, joined by `OR`, with `AND` inside a group.

* `Token.lex` cuts the text into tokens, `Condition.read` reads them.  It refuses the text at the
  first token that does not belong where it stands, or where the condition grows too large
  (`Extent`).
* `Comparison.holds` says whether one comparison is true of a row for a value.  A column of numbers
  compares with a text as a number if the text is one, and is less than every other text.
* `Condition.holds` says so for a condition and the values for its placeholders, in order, and
  `Condition.hinges` whether this depends on patterns that are too long to be matched.
-/

set_option autoImplicit false

namespace Fonoteca

/-! ## Tokens -/

/-- A token of a condition. -/
inductive Token where
  | opening
  | closing
  /-- The place of a value. -/
  | hole
  /-- A name or a keyword. -/
  | word (s : String)
  /-- A sign of comparison. -/
  | sign (s : String)
  /-- A text between apostrophes. -/
  | literal (s : String)
  deriving DecidableEq, Repr

namespace Token

/-- A token as it is written. -/
def text : Token → String
  | .opening => "("
  | .closing => ")"
  | .hole => "?"
  | .word s => s
  | .sign s => s
  | .literal s => "'" ++ s ++ "'"

/-- What the reader of tokens is inside of, with the characters of it that it has seen, the last one
first. -/
inductive Mode where
  | between
  | inWord (seen : List Char)
  | inSign (seen : List Char)
  | inLiteral (seen : List Char)

/-- The token that ends where the reader leaves what it is inside of. -/
def finish : Mode → List Token
  | .between => []
  | .inWord seen => [.word (String.ofList seen.reverse)]
  | .inSign seen => [.sign (String.ofList seen.reverse)]
  | .inLiteral seen => [.word (String.ofList ('\'' :: seen.reverse))]

/-- Whether a character belongs to a sign of comparison. -/
def isSign (c : Char) : Bool :=
  c == '=' || c == '<' || c == '>'

/-- The tokens that end before a character, and the mode after it, outside of literals. -/
def step (m : Mode) (c : Char) : List Token × Mode :=
  if c = ' ' then (finish m, .between)
  else if c = '(' then (finish m ++ [.opening], .between)
  else if c = ')' then (finish m ++ [.closing], .between)
  else if c = '?' then (finish m ++ [.hole], .between)
  else if c = '\'' then (finish m, .inLiteral [])
  else if isSign c then
    match m with
    | .inSign seen => ([], .inSign (c :: seen))
    | m => (finish m, .inSign [c])
  else
    match m with
    | .inWord seen => ([], .inWord (c :: seen))
    | m => (finish m, .inWord [c])

/-- The tokens of the characters that follow a mode. -/
def lexFrom : Mode → List Char → List Token
  | m, [] => finish m
  | .inLiteral seen, c :: cs =>
    if c = '\'' then .literal (String.ofList seen.reverse) :: lexFrom .between cs
    else lexFrom (.inLiteral (c :: seen)) cs
  | .between, c :: cs => (step .between c).1 ++ lexFrom (step .between c).2 cs
  | .inWord seen, c :: cs => (step (.inWord seen) c).1 ++ lexFrom (step (.inWord seen) c).2 cs
  | .inSign seen, c :: cs => (step (.inSign seen) c).1 ++ lexFrom (step (.inSign seen) c).2 cs

/-- The tokens of a text. -/
def lex (s : String) : List Token :=
  lexFrom .between s.toList

end Token

/-! ## Conditions -/

/-- How a column is compared with a value. -/
inductive Test where
  | equal
  | less
  | greater
  | atLeast
  | atMost
  | like
  deriving DecidableEq, Repr

/-- One comparison, perhaps denied. -/
structure Comparison where
  denied : Bool
  column : Field
  test : Test
  deriving DecidableEq, Repr

/-- A disjunction of conjunctions of comparisons. -/
abbrev Condition := List (List Comparison)

/-- The column that a name stands for. -/
def Field.ofColumn? (name : String) : Option Field :=
  Field.all.find? (·.column = name)

/-- The test that a sign stands for. -/
def Test.ofSign? (s : String) : Option Test :=
  if s = "=" then some .equal
  else if s = "<" then some .less
  else if s = ">" then some .greater
  else if s = ">=" then some .atLeast
  else if s = "<=" then some .atMost
  else none

namespace Comparison

/-- A comparison behind `NOT`, or one that begins with its column. -/
def readFrom (denied : Bool) : List Token → Option (Comparison × List Token)
  | .word name :: .sign sign :: .hole :: rest =>
    match Field.ofColumn? name, Test.ofSign? sign with
    | some column, some test => some (⟨denied, column, test⟩, rest)
    | _, _ => none
  | .word name :: .word "LIKE" :: .hole :: .word "ESCAPE" :: .literal "\\" :: rest =>
    (Field.ofColumn? name).map fun column => (⟨denied, column, .like⟩, rest)
  | _ => none

/-- The comparison at the front of some tokens, and the tokens behind it. -/
def read : List Token → Option (Comparison × List Token)
  | .word "NOT" :: rest => readFrom true rest
  | tokens => readFrom false tokens

end Comparison

/-! ## The size of a condition -/

/-- How many values a condition may have places for. -/
def maxPlaces : Nat := 32766

/-- How high a condition may be as a tree. -/
def maxHeight : Nat := 1000

/-- How many conditions come behind the one that is read: the tables are joined by them. -/
def joinCount : Nat := 2

/-- How high a comparison is as a tree: the name of the column has two parts, the sign stands above
it, and `NOT` above the sign. -/
def Comparison.height (c : Comparison) : Nat :=
  if c.denied then 4 else 3

/-- The height of a chain of conditions with one more at its end.  Each but the first is joined to
all that come before it. -/
def chainHeight (height next : Nat) : Nat :=
  if height = 0 then next else max height next + 1

/-- What has been read of a condition: the places for values in it, and how high it is. -/
structure Extent where
  places : Nat := 0
  height : Nat := 0
  deriving DecidableEq, Repr

namespace Extent

/-- With one more place. -/
def addPlace (e : Extent) : Except Fault Extent :=
  if maxPlaces ≤ e.places then .error .tooManyPlaces else .ok { e with places := e.places + 1 }

/-- With a condition of some height at the end of the chain. -/
def link (e : Extent) (height : Nat) : Except Fault Extent :=
  if maxHeight < chainHeight e.height height then .error .tooHigh
  else .ok { e with height := chainHeight e.height height }

/-- With one more comparison at the end of the chain. -/
def addComparison (e : Extent) (c : Comparison) : Except Fault Extent := do
  (← e.addPlace).link c.height

/-- With a group of comparisons, which are a chain by themselves, at the end of the chain. -/
def addGroup (e : Extent) (group : List Comparison) : Except Fault Extent := do
  let inner ← group.foldlM addComparison { places := e.places }
  { e with places := inner.places }.link inner.height

end Extent

/-! ## Reading a condition -/

/-- The tokens cut at every keyword of the given spelling. -/
def Token.splitAt (keyword : String) : List Token → List (List Token)
  | [] => [[]]
  | t :: ts =>
    if t = .word keyword then [] :: splitAt keyword ts
    else match splitAt keyword ts with
      | [] => [[t]]
      | piece :: pieces => (t :: piece) :: pieces

namespace Condition

/-- The keyword that follows the condition in the request to the database. -/
def follower : String := "ORDER"

/-- Refuses at the first of some tokens, or at what follows if there is none. -/
def refuse {α : Type} (next : String) (tokens : List Token) : Except Fault α :=
  .error (.syntaxError ((tokens.head?.map Token.text).getD next))

/-- The comparisons that follow an opening parenthesis, up to the closing one. -/
def readGroup (next : String) : List (List Token) → Except Fault (List Comparison)
  | [] => refuse next []
  | [piece] =>
    match Comparison.read piece with
    | some (c, [.closing]) => .ok [c]
    | some (_, .closing :: rest) => refuse next rest
    | some (_, rest) => refuse next rest
    | none => refuse next piece
  | piece :: pieces =>
    match Comparison.read piece with
    | some (c, []) => (readGroup next pieces).map (c :: ·)
    | some (_, rest) => refuse next rest
    | none => refuse "AND" piece

/-- The groups of a condition behind what has been read of it, from the tokens between one `OR` and
the next. -/
def readGroups (e : Extent) : List (List Token) → Except Fault Condition
  | [] => if maxHeight < e.height + joinCount then .error .tooHigh else .ok []
  | piece :: pieces => do
    let next := if pieces = [] then follower else "OR"
    match piece with
    | .opening :: tokens =>
      let group ← readGroup next (Token.splitAt "AND" tokens)
      let groups ← readGroups (← e.addGroup group) pieces
      return group :: groups
    | tokens => refuse next tokens

/-- The condition that a text spells. -/
def read (s : String) : Except Fault Condition :=
  readGroups {} (Token.splitAt "OR" (Token.lex s))

end Condition

/-! ## Truth -/

/-- What a row holds in a column. -/
inductive Cell where
  | text (s : String)
  | number (n : Int)
  deriving DecidableEq, Repr

/-- What a row holds in the column of a field. -/
def JoinedRow.cell (r : JoinedRow) : Field → Cell
  | .title => .text r.title
  | .artist => .text r.artist
  | .album => .text r.album
  | .genre => .text r.genre
  | .track => .number r.number
  | .year => .number r.year

namespace Cell

/-- What a cell holds, as text. -/
def toText : Cell → String
  | .text s => s
  | .number n => toString n

/-- How two texts compare, character by character. -/
def compareText (s t : String) : Ordering :=
  if s < t then .lt else if s = t then .eq else .gt

/-- How a cell compares with a value. -/
def compare : Cell → Bind → Ordering
  | .text s, .text t => compareText s t
  | .text s, .integer n => compareText s (toString n)
  | .number n, .integer m => Ord.compare n m
  | .number n, .text s =>
    match Text.Amount.ofText? s with
    | some a => a.compareInt n
    | none => .lt

end Cell

/-- A value as a pattern. -/
def Bind.pattern : Bind → String
  | .text s => s
  | .integer n => toString n

/-- Whether a test is true of a cell and a value. -/
def Test.holds (cell : Cell) (b : Bind) : Test → Bool
  | .equal => cell.compare b == .eq
  | .less => cell.compare b == .lt
  | .greater => cell.compare b == .gt
  | .atLeast => cell.compare b != .lt
  | .atMost => cell.compare b != .gt
  | .like => Text.like cell.toText b.pattern

/-- Whether a comparison is true of a row for a value. -/
def Comparison.holds (r : JoinedRow) (c : Comparison) (b : Bind) : Bool :=
  (c.test.holds (r.cell c.column) b) != c.denied

/-- Whether the database refuses to make a comparison, whatever the row. -/
def Comparison.isOverlong (c : Comparison) (b : Bind) : Bool :=
  c.test == .like && Text.isOverlong b.pattern

namespace Condition

/-- Whether each comparison of a group is true for its value, by a notion of truth.  A comparison
without a value is not true. -/
def groupHolds (truth : Comparison → Bind → Bool) : List Comparison → List Bind → Bool
  | [], _ => true
  | _ :: _, [] => false
  | c :: cs, b :: bs => truth c b && groupHolds truth cs bs

/-- Whether a condition is true by a notion of truth for its comparisons, the values being given to
the placeholders in order. -/
def holdsBy (truth : Comparison → Bind → Bool) : Condition → List Bind → Bool
  | [], _ => false
  | group :: groups, bs =>
    groupHolds truth group bs || holdsBy truth groups (bs.drop group.length)

/-- Whether a condition is true of a row. -/
def holds (r : JoinedRow) (condition : Condition) (bs : List Bind) : Bool :=
  condition.holdsBy (Comparison.holds r) bs

/-- Whether the comparisons that are refused would decide if a condition is true of a row: it is true
if they all are, and not without them. -/
def hinges (r : JoinedRow) (condition : Condition) (bs : List Bind) : Bool :=
  condition.holdsBy (fun c b => c.isOverlong b || c.holds r b) bs &&
    !condition.holdsBy (fun c b => !c.isOverlong b && c.holds r b) bs

/-- Whether one of the comparisons is refused. -/
def hasOverlong (condition : Condition) (bs : List Bind) : Bool :=
  (condition.flatten.zip bs).any fun p => p.1.isOverlong p.2

end Condition
end Fonoteca
