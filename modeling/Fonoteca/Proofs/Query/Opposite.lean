import Fonoteca.Proofs.Query.Condition

/-!
# Operators and their opposites

Each operator has one that is true exactly where it is not.  For `!=` and `!~` this is how they are
written, with `NOT` in front of the comparison that they deny.  But `!<` and `!>` are written as
comparisons of their own, `>=` and `<=`, and deny something only because a cell and a value always
compare in one of three ways.

* `Operator.opposite` is the operator that denies another one.
* **`Term.holds_opposite`** : a term with the opposite operator holds for the rows for which the
  term does not.
* `Term.outcome` is the way in which a row compares with the value of a term, of which there are
  three (`Term.holds_ofOrdering`).
-/

set_option autoImplicit false

namespace Fonoteca

namespace Operator

/-- The operator that is true where another one is not. -/
def opposite : Operator → Operator
  | .equal => .notEqual
  | .notEqual => .equal
  | .like => .notLike
  | .notLike => .like
  | .less => .notLess
  | .notLess => .less
  | .greater => .notGreater
  | .notGreater => .greater

@[simp] theorem isSubstring_opposite (op : Operator) : op.opposite.isSubstring = op.isSubstring := by
  cases op <;> rfl

/-- The test of the opposite operator, denied or not, has the other outcome. -/
theorem holds_opposite (op : Operator) (cell : Cell) (b : Bind) :
    (op.opposite.test.holds cell b != op.opposite.isDenied) =
      !(op.test.holds cell b != op.isDenied) := by
  cases op <;> simp [opposite, test, isDenied, Test.holds, bne]

/-- The operator that admits one way to compare. -/
def ofOrdering : Ordering → Operator
  | .lt => .less
  | .eq => .equal
  | .gt => .greater

end Operator

namespace Term

/-- Whether the comparison of a term holds for a row and the value of the term. -/
def holds (t : Term) (row : JoinedRow) : Bool :=
  t.comparison.holds row t.bind

/-- The term with the opposite operator. -/
def opposite (t : Term) : Term :=
  { t with op := t.op.opposite }

/-- An operator and its opposite look at the same value. -/
@[simp] theorem bind_opposite (t : Term) : t.opposite.bind = t.bind := by
  rw [bind, opposite, Operator.isSubstring_opposite]
  rfl

/-- **The opposite of a term holds for the rows for which the term does not.** -/
theorem holds_opposite (t : Term) (row : JoinedRow) : t.opposite.holds row = !t.holds row := by
  rw [holds, bind_opposite]
  exact t.op.holds_opposite (row.cell t.field) t.bind

/-! ## Three ways to compare -/

/-- How a row compares with a value in the column of a field. -/
def outcome (field : Field) (value : String) (row : JoinedRow) : Ordering :=
  (row.cell field).compare (bind ⟨field, .equal, value⟩)

/-- **A row compares with a value in one of three ways**, and the term with the operator of each way
holds for the rows that compare so. -/
theorem holds_ofOrdering (field : Field) (value : String) (o : Ordering) (row : JoinedRow) :
    holds ⟨field, .ofOrdering o, value⟩ row = (outcome field value row == o) := by
  cases o <;> simp [holds, comparison, Comparison.holds, Operator.ofOrdering, Operator.test,
    Operator.isDenied, Test.holds, outcome, bind, Operator.isSubstring]

end Term
end Fonoteca
