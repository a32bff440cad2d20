import Fonoteca.Proofs.Lists
import Fonoteca.Proofs.Query.Condition

/-!
# The text of a filter and its placeholders

What is typed as the value of a term never gets into the text of a filter.  The text depends on the
fields and operators alone, and it tells them: from the text one can read back which terms the
clauses have, even if some clause is empty or there is none.

* `Query.shape` : the fields and operators of a query, in its clauses.
* `Query.clause_eq_iff` : two queries have the same text just when they have the same shape.
* `Query.clause_eq_append` : the text of a filter around a term, with `Query.textBefore` in front of
  it and `Query.textBehind` behind it.
* **`Query.placeholders`** : what the text of a filter depends on, and whose its placeholders are.
-/

set_option autoImplicit false

namespace Fonoteca

/-! ## Joined texts and tokens -/

/-- A character that is not in the separator is as often in joined texts as in all of them. -/
theorem count_intercalate {c : Char} {sep : String} (hsep : sep.toList.count c = 0)
    (xs : List String) :
    (sep.intercalate xs).toList.count c = (xs.flatMap String.toList).count c := by
  rw [String.toList_intercalate]
  cases xs with
  | nil => rfl
  | cons x xs => simp [intercalate_cons_eq, List.count_flatMap, Function.comp_def, hsep]

/-- Joining by a keyword can be undone if no piece is empty or has the keyword in it. -/
theorem Token.intercalate_inj {keyword : String} {xs ys : List (List Token)}
    (hxs : ∀ x ∈ xs, x ≠ [] ∧ .word keyword ∉ x) (hys : ∀ y ∈ ys, y ≠ [] ∧ .word keyword ∉ y) :
    [.word keyword].intercalate xs = [.word keyword].intercalate ys ↔ xs = ys := by
  have hnil : ∀ {xs : List (List Token)}, (∀ x ∈ xs, x ≠ [] ∧ .word keyword ∉ x) →
      ([.word keyword].intercalate xs = [] ↔ xs = []) := by
    intro xs hxs
    cases xs with
    | nil => simp
    | cons x xs => simp [intercalate_cons_eq, (hxs x (.head _)).1]
  refine ⟨fun h => ?_, fun h => h ▸ rfl⟩
  by_cases hempty : xs = []
  · rw [hempty, List.intercalate_nil] at h
    rw [hempty, (hnil hys).1 h.symm]
  · have hempty' : ys ≠ [] := fun hy => hempty ((hnil hxs).1 (h.trans ((hnil hys).2 hy)))
    rw [← splitAt_intercalate hempty fun x hx => (hxs x hx).2, h,
      splitAt_intercalate hempty' fun y hy => (hys y hy).2]

/-! ## The shape of a query -/

/-- What a term compares, and how. -/
def Term.kind (t : Term) : Field × Operator :=
  (t.field, t.op)

/-- An operator is told by its test and whether it denies it. -/
theorem Operator.eq_of_test {op op' : Operator} (hdenied : op.isDenied = op'.isDenied)
    (htest : op.test = op'.test) : op = op' := by
  revert hdenied htest
  cases op <;> cases op' <;> decide

/-- The tokens of a term tell what it compares, and how. -/
theorem Term.tokens_eq_iff (t u : Term) : t.tokens = u.tokens ↔ t.kind = u.kind := by
  constructor
  · intro h
    have hread := t.read_tokens []
    rw [h, u.read_tokens [], Option.some.injEq, Prod.mk.injEq] at hread
    obtain ⟨hdenied, hfield, hop⟩ := Comparison.mk.inj hread.1
    exact Prod.ext hfield.symm (Operator.eq_of_test hdenied hop).symm
  · intro h
    obtain ⟨hfield, hop⟩ := Prod.mk.inj h
    rw [tokens, tokens, hfield, hop]

namespace Query

/-- What the terms of the clauses compare, and how. -/
def shape (q : Query) : List (List (Field × Operator)) :=
  q.clauses.map (·.map Term.kind)

theorem groupTokens_eq_iff (ts us : List Term) :
    groupTokens ts = groupTokens us ↔ ts.map Term.kind = us.map Term.kind := by
  have hterms : ∀ (ts : List Term), ∀ x ∈ ts.map Term.tokens, x ≠ [] ∧ .word "AND" ∉ x := by
    intro ts x hx
    obtain ⟨t, -, rfl⟩ := List.mem_map.1 hx
    exact ⟨by simp [Term.tokens], t.keyword_not_mem_tokens (.inl rfl)⟩
  rw [groupTokens, groupTokens, List.cons.injEq, List.append_left_inj, clauseTokens, clauseTokens,
    Token.intercalate_inj (hterms ts) (hterms us), map_eq_map_iff_of_alike fun t _ u => t.tokens_eq_iff u]
  exact and_iff_right rfl

/-- The text of a filter is made of the columns and the operators of the terms. -/
theorem clause_eq_shape (q : Query) :
    q.toFilter.clause = " OR ".intercalate (q.shape.map fun kinds =>
      "(" ++ " AND ".intercalate (kinds.map fun k => k.2.before ++ k.1.column ++ k.2.after) ++
        ")") := by
  rw [toFilter, shape, List.map_map]
  refine congrArg (" OR ".intercalate) (List.map_congr_left fun ts _ => ?_)
  rw [clauseText, Function.comp_apply, List.map_map]
  rfl

/-- **The text of a filter tells the shape of the query and nothing else.** -/
theorem clause_eq_iff (q q' : Query) :
    q.toFilter.clause = q'.toFilter.clause ↔ q.shape = q'.shape := by
  have hgroups : ∀ q : Query, ∀ x ∈ q.clauses.map groupTokens, x ≠ [] ∧ .word "OR" ∉ x := by
    intro q x hx
    obtain ⟨ts, -, rfl⟩ := List.mem_map.1 hx
    exact ⟨List.cons_ne_nil _ _, or_not_mem_groupTokens ts⟩
  constructor
  · intro h
    have hlex := congrArg Token.lex h
    rw [lex_toFilter, lex_toFilter, Token.intercalate_inj (hgroups q) (hgroups q')] at hlex
    exact (map_eq_map_iff_of_alike fun ts _ us => groupTokens_eq_iff ts us).1 hlex
  · intro h
    rw [clause_eq_shape, clause_eq_shape, h]

/-! ## Placeholders -/

/-- The text of a filter in front of a term, given the clauses before that of the term and the terms
before it in its own clause. -/
def textBefore (before : List (List Term)) (ts : List Term) : String :=
  String.join (before.map (clauseText · ++ " OR ")) ++ "(" ++
    String.join (ts.map (·.predicate ++ " AND "))

/-- The text of a filter behind a term, given the terms that follow it in its clause and the clauses
that follow this one. -/
def textBehind (us : List Term) (after : List (List Term)) : String :=
  String.join (us.map (" AND " ++ ·.predicate)) ++ ")" ++
    String.join (after.map (" OR " ++ clauseText ·))

/-- The text of a filter around one of the terms. -/
theorem clause_eq_append (before : List (List Term)) (ts : List Term) (t : Term) (us : List Term)
    (after : List (List Term)) :
    (Query.mk (before ++ (ts ++ t :: us) :: after)).toFilter.clause =
      textBefore before ts ++ t.predicate ++ textBehind us after := by
  rw [← String.toList_inj]
  simp [toFilter, clauseText, textBefore, textBehind, String.toList_intercalate,
    intercalate_append_cons, List.flatMap_map]

/-- A term has one placeholder. -/
theorem count_predicate (t : Term) : t.predicate.toList.count '?' = 1 := by
  have hbefore : t.op.before.toList.count '?' = 0 := by
    cases t.op <;> decide
  have hcolumn : t.field.column.toList.count '?' = 0 := by
    cases t.field <;> decide
  have hafter : t.op.after.toList.count '?' = 1 := by
    cases t.op <;> decide
  rw [Term.predicate, String.toList_append, String.toList_append, List.count_append,
    List.count_append, hbefore, hcolumn, hafter]

/-- A clause has one placeholder for each term. -/
theorem count_clauseText (ts : List Term) : (clauseText ts).toList.count '?' = ts.length := by
  rw [clauseText, String.toList_append, String.toList_append, List.count_append, List.count_append,
    count_intercalate (by decide), List.count_flatMap]
  simp [Function.comp_def, count_predicate, List.map_const']

/-- A filter has one placeholder for each term. -/
theorem count_clause (q : Query) :
    q.toFilter.clause.toList.count '?' = q.clauses.flatten.length := by
  rw [toFilter, count_intercalate (by decide), List.count_flatMap]
  simp [Function.comp_def, count_clauseText, List.length_flatten]

/-- In front of a term there is one placeholder for each term before it. -/
theorem count_textBefore (before : List (List Term)) (ts : List Term) :
    (textBefore before ts).toList.count '?' = before.flatten.length + ts.length := by
  simp [textBefore, List.count_flatMap, Function.comp_def, count_clauseText, count_predicate,
    List.length_flatten, List.flatMap_map, List.map_const']

/-- **What the text of a filter depends on, and whose its placeholders are.**  The texts of two
queries are the same just when these have the same fields and operators in their clauses, whatever
the values are.  There are as many placeholders as terms; the `k`-th of them, counted from 0, stands
in the comparison of the `k`-th term, and the `k`-th value is that of this term. -/
theorem placeholders (q : Query) :
    (∀ q' : Query, q.toFilter.clause = q'.toFilter.clause ↔ q.shape = q'.shape) ∧
    q.toFilter.clause.toList.count '?' = q.clauses.flatten.length ∧
    q.toFilter.binds.length = q.clauses.flatten.length ∧
    ∀ k t, q.clauses.flatten[k]? = some t →
      q.toFilter.binds[k]? = some t.bind ∧
      ∃ before ts us after, q.clauses = before ++ (ts ++ t :: us) :: after ∧
        before.flatten.length + ts.length = k ∧
        q.toFilter.clause = textBefore before ts ++ t.predicate ++ textBehind us after ∧
        (textBefore before ts).toList.count '?' = k ∧ t.predicate.toList.count '?' = 1 := by
  refine ⟨clause_eq_iff q, count_clause q, List.length_map _, fun k t hk => ⟨?_, ?_⟩⟩
  · rw [toFilter, List.getElem?_map, hk, Option.map_some]
  · obtain ⟨before, ts, us, after, hclauses, rfl⟩ := exists_flatten_split hk
    refine ⟨before, ts, us, after, hclauses, rfl, ?_, count_textBefore before ts, count_predicate t⟩
    rw [← clause_eq_append, ← hclauses]

/-- A value that looks like a part of a filter stays a value, that of the third placeholder. -/
theorem placeholders_third :
    ∃ before ts us after,
      (Query.mk [[⟨.title, .like, "'?"⟩], [], [⟨.year, .less, "?"⟩, ⟨.artist, .equal, "? OR ?"⟩]]
        ).toFilter = ⟨textBefore before ts ++ "performers.name = ?" ++ textBehind us after,
          [.text "%'?%", .text "?", .text "? OR ?"]⟩ ∧
      (textBefore before ts).toList.count '?' = 2 := by
  obtain ⟨-, -, -, hplace⟩ := placeholders
    ⟨[[⟨.title, .like, "'?"⟩], [], [⟨.year, .less, "?"⟩, ⟨.artist, .equal, "? OR ?"⟩]]⟩
  obtain ⟨-, before, ts, us, after, -, -, hclause, hcount, -⟩ :=
    hplace 2 ⟨.artist, .equal, "? OR ?"⟩ rfl
  refine ⟨before, ts, us, after, ?_, hcount⟩
  rw [← show (Term.mk .artist .equal "? OR ?").predicate = "performers.name = ?" by decide,
    ← hclause]
  decide

end Query
end Fonoteca
