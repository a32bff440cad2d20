import Fonoteca.Proofs.Query.Opposite
import Fonoteca.Proofs.Store.Matching

/-!
# Whole numbers in a filter

Where a column of numbers is compared with a whole number of 64 bits, the filter of a query has the
number as its value.  The text that spells the number would do as well: the column takes such a text
for a number, and the two readers of texts agree on all of them, whatever sign and zeros are in
front, up to the least and the greatest number.

* `Term.IsWhole t n` : a term compares a column of numbers with a whole number.
* `Term.Accepts t b` : a value may be put in the place of the placeholder of a term.
* `Condition.holdsBy_accepted` : a condition has the same truth for all values that its terms accept.
* **`Store.matching_accepted`** : what a query finds with numbers for values it finds with texts.
-/

set_option autoImplicit false

namespace Fonoteca

/-! ## Values for a term -/

namespace Term

/-- A term compares a column of numbers with a whole number of 64 bits. -/
structure IsWhole (t : Term) (n : ℤ) : Prop where
  field : t.field.isNumeric = true
  op : t.op.isSubstring = false
  value : Text.Numeral.int64? t.value = some n

/-- What can be put in the place of the placeholder of a term: a whole number, or the text that
spells it; and for a term that asks for no whole number what the filter has there. -/
inductive Accepts (t : Term) : Bind → Prop
  | integer {n : ℤ} (h : t.IsWhole n) : t.Accepts (.integer n)
  | text {n : ℤ} (h : t.IsWhole n) : t.Accepts (.text t.value)
  | other (h : ∀ n, ¬ t.IsWhole n) : t.Accepts t.bind

/-- The filter has whole numbers as numbers. -/
theorem bind_of_isWhole {t : Term} {n : ℤ} (h : t.IsWhole n) : t.bind = .integer n := by
  rw [bind, if_neg (by simp [h.op]), if_pos h.field, h.value]

/-- What the filter has in the place of a term is accepted. -/
theorem accepts_bind (t : Term) : t.Accepts t.bind := by
  by_cases h : ∃ n, t.IsWhole n
  · obtain ⟨n, hn⟩ := h
    exact bind_of_isWhole hn ▸ .integer hn
  · exact .other (not_exists.1 h)

end Term

/-! ## The truth of a comparison -/

theorem JoinedRow.exists_number (row : JoinedRow) {f : Field} (h : f.isNumeric = true) :
    ∃ n, row.cell f = .number n := by
  cases f with
  | track => exact ⟨row.number, rfl⟩
  | year => exact ⟨row.year, rfl⟩
  | _ => cases h

/-- A test that is not on a pattern depends only on how the cell and the value compare. -/
theorem Operator.test_holds_congr {op : Operator} (hop : op.isSubstring = false) {cell : Cell}
    {b c : Bind} (h : cell.compare b = cell.compare c) :
    op.test.holds cell b = op.test.holds cell c := by
  cases op with
  | like => cases hop
  | notLike => cases hop
  | _ => simp only [Operator.test, Test.holds, h]

/-- **A comparison has the same truth for all values that its term accepts.** -/
theorem Term.holds_of_accepts {t : Term} {b : Bind} (h : t.Accepts b) (row : JoinedRow) :
    t.comparison.holds row b = t.holds row := by
  cases h with
  | integer hwhole => rw [holds, bind_of_isWhole hwhole]
  | other => rfl
  | text hwhole =>
    obtain ⟨k, hk⟩ := row.exists_number hwhole.field
    have hcompare : (row.cell t.field).compare (.text t.value) =
        (row.cell t.field).compare t.bind := by
      rw [bind_of_isWhole hwhole, hk]
      simp only [Cell.compare, Text.Amount.ofText?_of_int64? hwhole.value]
      rfl
    rw [holds, Comparison.holds, Comparison.holds]
    exact congrArg (· != t.op.isDenied) (Operator.test_holds_congr hwhole.op hcompare)

/-- Terms with whole numbers have no pattern, and the others have theirs. -/
theorem Term.isOverlong_of_accepts {t : Term} {b : Bind} (h : t.Accepts b) :
    t.comparison.isOverlong b = t.comparison.isOverlong t.bind := by
  have hwhole : ∀ {n}, t.IsWhole n → ∀ c, t.comparison.isOverlong c = false := by
    intro n hwhole c
    have htest : (t.op.test == .like) = t.op.isSubstring := by
      cases t.op <;> rfl
    rw [Comparison.isOverlong, Term.comparison, htest, hwhole.op, Bool.false_and]
  cases h with
  | integer h => rw [hwhole h, hwhole h]
  | text h => rw [hwhole h, hwhole h]
  | other => rfl

/-- **The condition of a query has the same truth for all values that the terms accept**, by each
notion of truth that does not tell them from those of the filter. -/
theorem Condition.holdsBy_accepted {truth : Comparison → Bind → Bool} {q : Query} {bs cs : List Bind}
    (hbs : List.Forall₂ Term.Accepts q.clauses.flatten bs)
    (hcs : List.Forall₂ Term.Accepts q.clauses.flatten cs)
    (htruth : ∀ t b, Term.Accepts t b → truth t.comparison b = truth t.comparison t.bind) :
    q.condition.holdsBy truth bs = q.condition.holdsBy truth cs := by
  rw [Query.condition, holdsBy_of_forall₂ (hbs.imp htruth), holdsBy_of_forall₂ (hcs.imp htruth)]

/-- Values that the terms accept make the same comparisons overlong. -/
theorem Condition.hasOverlong_accepted {q : Query} {bs cs : List Bind}
    (hbs : List.Forall₂ Term.Accepts q.clauses.flatten bs)
    (hcs : List.Forall₂ Term.Accepts q.clauses.flatten cs) :
    q.condition.hasOverlong bs = q.condition.hasOverlong cs := by
  rw [Query.condition, hasOverlong_of_forall₂ (hbs.imp fun _ _ => Term.isOverlong_of_accepts),
    hasOverlong_of_forall₂ (hcs.imp fun _ _ => Term.isOverlong_of_accepts)]

/-! ## What is found -/

/-- Tables give the same answer to the clause of a query for all values that the terms accept. -/
theorem Tables.matching_of_accepts (tables : Tables) (plan : Plan) {q : Query} {bs cs : List Bind}
    (hbs : List.Forall₂ Term.Accepts q.clauses.flatten bs)
    (hcs : List.Forall₂ Term.Accepts q.clauses.flatten cs) :
    tables.matching plan ⟨q.toFilter.clause, bs⟩ = tables.matching plan ⟨q.toFilter.clause, cs⟩ := by
  have hholds : ∀ row, q.condition.holds row bs = q.condition.holds row cs :=
    fun row => Condition.holdsBy_accepted hbs hcs fun t b hb => Term.holds_of_accepts hb row
  have hhinges : ∀ row, q.condition.hinges row bs = q.condition.hinges row cs := by
    intro row
    rw [Condition.hinges, Condition.hinges]
    rw [Condition.holdsBy_accepted hbs hcs, Condition.holdsBy_accepted hbs hcs]
    all_goals
      intro t b hb
      rw [Term.isOverlong_of_accepts hb, Term.holds_of_accepts hb]
      rfl
  have hmeets : tables.meetsOverlong plan q.condition bs =
      tables.meetsOverlong plan q.condition cs := by
    simp only [meetsOverlong, hhinges, Condition.hasOverlong_accepted hbs hcs]
  rw [matching, matching]
  cases hread : Condition.read q.toFilter.clause with
  | error => rfl
  | ok c =>
    obtain ⟨-, -, -, rfl⟩ := Condition.read_toFilter_eq_ok_iff.1 hread
    simp only [ok_bind, hmeets, hholds]

namespace Store

/-- **What a query finds with numbers for values it finds with texts.**  Each value that is a whole
number of 64 bits, for an operator that compares a column of numbers with it, can be put in its
place as the number or as the text.  The store gives the same answer, which is that to the filter of
the query: a list of tracks unless the store is closed or refuses the query.  Where it makes other
comparisons for one choice than for another, and refuses neither, the lists are the same. -/
theorem matching_accepted (s : Store) (plan : Plan) (q : Query) {bs cs : List Bind}
    (hbs : List.Forall₂ Term.Accepts q.clauses.flatten bs)
    (hcs : List.Forall₂ Term.Accepts q.clauses.flatten cs) :
    (matching plan ⟨q.toFilter.clause, bs⟩).run s = (matching plan ⟨q.toFilter.clause, cs⟩).run s ∧
    (matching plan ⟨q.toFilter.clause, bs⟩).run s = (matching plan q.toFilter).run s ∧
    (s.isOpen = true → ((∃ ids, (matching plan ⟨q.toFilter.clause, bs⟩).run s = (.ok ids, s)) ↔
      q.clauses ≠ [] ∧ [] ∉ q.clauses ∧ q.Fits ∧ ¬ q.MeetsOverlong plan s.tables)) ∧
    (s.isOpen = true → ∀ plan' ids ids',
      (matching plan ⟨q.toFilter.clause, bs⟩).run s = (.ok ids, s) →
      (matching plan' ⟨q.toFilter.clause, cs⟩).run s = (.ok ids', s) → ids = ids') := by
  have hown : ∀ {bs : List Bind}, List.Forall₂ Term.Accepts q.clauses.flatten bs → ∀ plan,
      (matching plan ⟨q.toFilter.clause, bs⟩).run s = (matching plan q.toFilter).run s := by
    intro bs hbs plan
    simp only [matching, Tables.matching_of_accepts _ _ hbs (q.forall₂_binds Term.accepts_bind)]
  refine ⟨(hown hbs plan).trans (hown hcs plan).symm, hown hbs plan, fun hopen => ?_,
    fun hopen plan' ids ids' hids hids' => ?_⟩
  · rw [hown hbs, exists_run_matching_iff hopen]
  · rw [hown hbs, run_matching_eq_ok_iff hopen] at hids
    rw [hown hcs, run_matching_eq_ok_iff hopen] at hids'
    exact hids.2.1.trans hids'.2.1.symm

/-- The track of the number 1 is found by `+001`, be it a number or a text, and so is the year 2018
with the greatest number of 64 bits. -/
theorem matching_accepted_oneTrack :
    ∃ ids, (matching .sparing ⟨(Query.mk [[⟨.track, .equal, "+001"⟩,
      ⟨.year, .notGreater, "9223372036854775807"⟩]]).toFilter.clause,
        [.integer 1, .integer 9223372036854775807]⟩).run oneTrack = (.ok ids, oneTrack) ∧
      (matching .sparing ⟨(Query.mk [[⟨.track, .equal, "+001"⟩,
        ⟨.year, .notGreater, "9223372036854775807"⟩]]).toFilter.clause,
          [.text "+001", .text "9223372036854775807"]⟩).run oneTrack = (.ok ids, oneTrack) := by
  have hone : (Term.mk .track .equal "+001").IsWhole 1 := ⟨rfl, rfl, by decide⟩
  have hgreatest : (Term.mk .year .notGreater "9223372036854775807").IsWhole 9223372036854775807 :=
    ⟨rfl, rfl, by decide⟩
  obtain ⟨hsame, -, hfinds, -⟩ := matching_accepted oneTrack .sparing
    ⟨[[⟨.track, .equal, "+001"⟩, ⟨.year, .notGreater, "9223372036854775807"⟩]]⟩
    (.cons (.integer hone) (.cons (.integer hgreatest) .nil))
    (.cons (.text hone) (.cons (.text hgreatest) .nil))
  obtain ⟨ids, hids⟩ := (hfinds rfl).2 ⟨by simp, by simp,
    Query.fits_of_length_le (by simp) (by simp), Query.not_meetsOverlong (by decide) _ _⟩
  exact ⟨ids, hids, hsame.symm.trans hids⟩

end Store
end Fonoteca
