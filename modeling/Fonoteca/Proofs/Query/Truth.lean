import Fonoteca.Proofs.Query.Condition
import Fonoteca.Proofs.Text.ByteOrder
import Fonoteca.Proofs.Text.Containment
import Fonoteca.Proofs.Text.Spelling

/-!
# What it means that a term is true

Truth of a term is said of a row directly, without a condition and without a database.

* `Orders n value o` says how a number compares with a value: as with the whole number that the
  value spells, or the decimal number, or as less than a word.
* `Term.IsTrue` is truth of a term, `Query.IsTrue` truth of a query.
* **`Term.holds_iff_isTrue`** : the comparison that a term stands for holds for rows of which the
  term is true.
-/

set_option autoImplicit false

namespace Fonoteca

open Text (Spelling OccursAs)

/-! ## Numbers and values -/

/-- A number compares with a value in a certain way. -/
inductive Orders (n : ℤ) (value : String) : Ordering → Prop
  /-- The value is a whole number of 64 bits. -/
  | integer {m : ℤ} (h : Text.Numeral.int64? value = some m) : Orders n value (compare n m)
  /-- The value is another decimal literal, up to the blanks around it, and exact. -/
  | exact {p : Spelling} (h : Text.Numeral.int64? value = none) (hp : p.IsDecimal)
      (htext : Text.Literal.strip value.toList = p.text) (hexact : p.IsExact) :
      Orders n value (compare (n : ℚ) p.value)
  /-- The value is a decimal literal that is not exact, and counts as a binary number. -/
  | rounded {p : Spelling} (h : Text.Numeral.int64? value = none) (hp : p.IsDecimal)
      (htext : Text.Literal.strip value.toList = p.text) (hrounded : ¬ p.IsExact) :
      Orders n value (p.literal.binary.compareInt n)
  /-- The value is no number, and more than every number. -/
  | word (h : Text.Numeral.int64? value = none)
      (hword : ∀ p : Spelling, p.IsDecimal → Text.Literal.strip value.toList ≠ p.text) :
      Orders n value .lt

/-- What a value is bound to that a number is compared with. -/
def numberBind (value : String) : Bind :=
  match Text.Numeral.int64? value with
  | some m => .integer m
  | none => .text value

/-- A number compares with a value in one way. -/
theorem orders_iff {n : ℤ} {value : String} {o : Ordering} :
    Orders n value o ↔ o = (Cell.number n).compare (numberBind value) := by
  have hamount : ∀ p : Spelling, p.IsDecimal → Text.Literal.strip value.toList = p.text →
      Text.Amount.ofText? value = some (.ofLiteral p.literal) := by
    intro p hp htext
    rw [Text.Amount.ofText?, Text.Literal.read?_eq_some_iff.2 ⟨p, hp, htext, rfl⟩]
    rfl
  have hrounded : ∀ p : Spelling, ¬ p.IsExact →
      Text.Amount.ofLiteral p.literal = .real p.literal.binary := by
    intro p hp
    rw [Text.Amount.ofLiteral, if_neg]
    rintro ⟨hwhole, hrange⟩
    have hwhole := Spelling.literal_whole_iff.1 hwhole
    refine hp (.inl ⟨hwhole, ?_⟩)
    rw [Spelling.value_of_isWhole hwhole]
    exact_mod_cast hrange
  have hnone : (∀ p : Spelling, p.IsDecimal → Text.Literal.strip value.toList ≠ p.text) →
      Text.Amount.ofText? value = none := by
    intro hword
    rw [Text.Amount.ofText?, Option.map_eq_none_iff, Option.eq_none_iff_forall_ne_some]
    intro l hl
    obtain ⟨p, hp, htext, -⟩ := Text.Literal.read?_eq_some_iff.1 hl
    exact hword p hp htext
  constructor
  · intro h
    cases h with
    | integer h => simp only [numberBind, h, Cell.compare]
    | exact h hp htext hexact =>
      simp only [numberBind, h, Cell.compare, hamount _ hp htext]
      exact (Spelling.compareInt_amount hexact n).symm
    | rounded h hp htext hnot =>
      simp only [numberBind, h, Cell.compare, hamount _ hp htext, hrounded _ hnot]
      rfl
    | word h hword => simp only [numberBind, h, Cell.compare, hnone hword]
  · rintro rfl
    cases h : Text.Numeral.int64? value with
    | some m =>
      simp only [numberBind, h, Cell.compare]
      exact .integer h
    | none =>
      simp only [numberBind, h, Cell.compare]
      by_cases hword : ∀ p : Spelling, p.IsDecimal → Text.Literal.strip value.toList ≠ p.text
      · rw [hnone hword]
        exact .word h hword
      · push Not at hword
        obtain ⟨p, hp, htext⟩ := hword
        rw [hamount p hp htext]
        by_cases hexact : p.IsExact
        · have hexactly := Orders.exact h hp htext hexact (n := n)
          rwa [← Spelling.compareInt_amount hexact n] at hexactly
        · rw [hrounded p hexact]
          exact .rounded h hp htext hexact

/-! ## Terms -/

/-- An operator admits the outcome of a comparison. -/
def Operator.Admits : Operator → Ordering → Prop
  | .equal, o => o = .eq
  | .notEqual, o => o ≠ .eq
  | .less, o => o = .lt
  | .greater, o => o = .gt
  | .notLess, o => o ≠ .lt
  | .notGreater, o => o ≠ .gt
  | .like, _ => False
  | .notLike, _ => False

/-- An operator is true of a text and a value.  Texts are ordered by their bytes. -/
def Operator.TrueOfText (op : Operator) (s value : String) : Prop :=
  match op with
  | .equal => s = value
  | .notEqual => s ≠ value
  | .like => OccursAs Text.seen value s
  | .notLike => ¬ OccursAs Text.seen value s
  | .less => Text.Utf8.encode s < Text.Utf8.encode value
  | .greater => Text.Utf8.encode value < Text.Utf8.encode s
  | .notLess => ¬ Text.Utf8.encode s < Text.Utf8.encode value
  | .notGreater => ¬ Text.Utf8.encode value < Text.Utf8.encode s

/-- An operator is true of a number and a value, which is looked for in the decimal numeral or else
compared with the number. -/
def Operator.TrueOfNumber (op : Operator) (n : ℤ) (value : String) : Prop :=
  match op with
  | .like => OccursAs id value (toString n)
  | .notLike => ¬ OccursAs id value (toString n)
  | op => ∃ o, Orders n value o ∧ op.Admits o

/-- A term is true of a row. -/
def Term.IsTrue (t : Term) (row : JoinedRow) : Prop :=
  match t.field with
  | .title => t.op.TrueOfText row.title t.value
  | .artist => t.op.TrueOfText row.artist t.value
  | .album => t.op.TrueOfText row.album t.value
  | .genre => t.op.TrueOfText row.genre t.value
  | .track => t.op.TrueOfNumber row.number t.value
  | .year => t.op.TrueOfNumber row.year t.value

/-- A query is true of a row if some clause has all of its terms true. -/
def Query.IsTrue (q : Query) (row : JoinedRow) : Prop :=
  ∃ ts ∈ q.clauses, ∀ t ∈ ts, t.IsTrue row

/-! ## Truth and the comparison of a term -/

theorem compareText_eq_lt_iff {s t : String} :
    Cell.compareText s t = .lt ↔ Text.Utf8.encode s < Text.Utf8.encode t := by
  rw [Text.Utf8.encode_lt_encode_iff, Cell.compareText]
  split_ifs with hlt heq <;> simp [hlt]

theorem compareText_eq_eq_iff {s t : String} : Cell.compareText s t = .eq ↔ s = t := by
  rw [Cell.compareText]
  split_ifs with hlt heq
  · have hne : s ≠ t := fun heq => String.lt_irrefl t (heq ▸ hlt)
    simp [hne]
  · simp [heq]
  · simp [heq]

theorem compareText_eq_gt_iff {s t : String} :
    Cell.compareText s t = .gt ↔ Text.Utf8.encode t < Text.Utf8.encode s := by
  rw [Text.Utf8.encode_lt_encode_iff, Cell.compareText]
  split_ifs with hlt heq
  · simp [String.lt_asymm hlt]
  · simp [heq]
  · have hgt : t < s := by
      by_contra hgt
      exact heq (String.le_antisymm (String.not_lt.1 hgt) (String.not_lt.1 hlt))
    simp [hgt]

/-- The test of an operator, denied or not, is what the operator means for texts. -/
theorem Operator.trueOfText_iff (op : Operator) (s value : String) :
    (op.test.holds (.text s) (if op.isSubstring then .text (Text.wildcard value) else .text value) !=
      op.isDenied) = true ↔ op.TrueOfText s value := by
  have hlike : Text.like s (Text.wildcard value) = true ↔ OccursAs Text.seen value s :=
    Text.like_wildcard_iff
  cases op with
  | like =>
    simpa [test, isDenied, isSubstring, Test.holds, Cell.toText, Bind.pattern, TrueOfText]
      using hlike
  | notLike =>
    simpa [test, isDenied, isSubstring, Test.holds, Cell.toText, Bind.pattern, TrueOfText]
      using not_congr hlike
  | _ => simp [test, isDenied, isSubstring, Test.holds, TrueOfText, Cell.compare,
      compareText_eq_lt_iff, compareText_eq_gt_iff, compareText_eq_eq_iff]

/-- The test of an operator, denied or not, is what the operator means for numbers. -/
theorem Operator.trueOfNumber_iff (op : Operator) (n : ℤ) (value : String) :
    (op.test.holds (.number n) (if op.isSubstring then .text (Text.wildcard value)
      else numberBind value) != op.isDenied) = true ↔ op.TrueOfNumber n value := by
  have hlike : Text.like (toString n) (Text.wildcard value) = true ↔
      OccursAs id value (toString n) := by
    rw [Text.like_wildcard_iff, Text.occursAs_seen_toString_iff]
  cases op with
  | like =>
    simpa [test, isDenied, isSubstring, Test.holds, Cell.toText, Bind.pattern, TrueOfNumber]
      using hlike
  | notLike =>
    simpa [test, isDenied, isSubstring, Test.holds, Cell.toText, Bind.pattern, TrueOfNumber]
      using not_congr hlike
  | _ => simp [test, isDenied, isSubstring, Test.holds, TrueOfNumber, Admits, orders_iff]

/-- **The comparison of a term holds for the rows of which the term is true.** -/
theorem Term.holds_iff_isTrue (t : Term) (row : JoinedRow) :
    t.comparison.holds row t.bind = true ↔ t.IsTrue row := by
  obtain ⟨field, op, value⟩ := t
  cases field with
  | title => exact op.trueOfText_iff row.title value
  | artist => exact op.trueOfText_iff row.artist value
  | album => exact op.trueOfText_iff row.album value
  | genre => exact op.trueOfText_iff row.genre value
  | track => exact op.trueOfNumber_iff row.number value
  | year => exact op.trueOfNumber_iff row.year value

end Fonoteca
