import Fonoteca.Proofs.Query.Overlong
import Fonoteca.Proofs.Store.Joined
import Fonoteca.Proofs.Store.Running

/-!
# What a filter finds

* `Query.IsAnswered` : a store does not refuse a query.
* `Tables.matching_toFilter_eq_ok_iff` is the answer to the filter of a query.
* **`Store.matching_iff_isTrue`** : a store finds the tracks of which the query is true, and refuses
  queries that have no clause or an empty one, that are too large, and that meet a pattern which is
  too long.
-/

set_option autoImplicit false

namespace Fonoteca

/-- A query that is not refused in some tables, by the plan of the database. -/
structure Query.IsAnswered (q : Query) (plan : Plan) (t : Tables) : Prop where
  clauses : q.clauses ≠ []
  empty : [] ∉ q.clauses
  fits : q.Fits
  overlong : ¬ q.MeetsOverlong plan t

namespace Query

variable {q : Query} {plan : Plan} {t : Tables}

/-- No row hinges on overlong terms of a query that is answered. -/
theorem IsAnswered.not_hinges (h : q.IsAnswered plan t) {row : JoinedRow} (hrow : row ∈ t.joined) :
    ¬ q.Hinges row :=
  fun hhinges => h.overlong (.inl ⟨row, hrow, hhinges⟩)

end Query

/-- **The answer to the filter of a query.** -/
theorem Tables.matching_toFilter_eq_ok_iff {t : Tables} {plan : Plan} {q : Query}
    {ids : List Int} :
    t.matching plan q.toFilter = .ok ids ↔ q.IsAnswered plan t ∧
      ids = (t.joined.filter fun r => q.condition.holds r q.toFilter.binds).map (·.id) := by
  simp only [matching, bind_eq_ok_iff, Condition.read_toFilter_eq_ok_iff]
  constructor
  · rintro ⟨_, ⟨hclauses, hempty, hfits, rfl⟩, hrun⟩
    split at hrun
    · cases hrun
    · next h =>
      rw [t.meetsOverlong_toFilter plan q] at h
      exact ⟨⟨hclauses, hempty, hfits, h⟩, (Except.ok.inj hrun).symm⟩
  · rintro ⟨h, rfl⟩
    refine ⟨_, ⟨h.clauses, h.empty, h.fits, rfl⟩, ?_⟩
    rw [if_neg (mt (t.meetsOverlong_toFilter plan q).1 h.overlong)]

namespace Store

open Text (OccursAs)

variable {s : Store} {plan : Plan} {q : Query}

/-- What an open store answers to the filter of a query that it does not refuse. -/
theorem run_matching_eq_ok_iff (hopen : s.isOpen = true) {ids : List Int} {s' : Store} :
    (matching plan q.toFilter).run s = (.ok ids, s') ↔ q.IsAnswered plan s.tables ∧
      ids = (s.tables.joined.filter fun r =>
        q.condition.holds r q.toFilter.binds).map (·.id) ∧ s' = s := by
  rw [matching, run_ask hopen, Prod.mk.injEq, classify_eq_ok_iff,
    Tables.matching_toFilter_eq_ok_iff, and_assoc, eq_comm (a := s)]

theorem run_matching (hopen : s.isOpen = true) (h : q.IsAnswered plan s.tables) :
    (matching plan q.toFilter).run s
      = (.ok ((s.tables.joined.filter fun r =>
          q.condition.holds r q.toFilter.binds).map (·.id)), s) :=
  (run_matching_eq_ok_iff hopen).2 ⟨h, rfl, rfl⟩

theorem exists_run_matching_iff (hopen : s.isOpen = true) :
    (∃ ids, (matching plan q.toFilter).run s = (.ok ids, s)) ↔
      q.clauses ≠ [] ∧ [] ∉ q.clauses ∧ q.Fits ∧ ¬ q.MeetsOverlong plan s.tables := by
  simp only [run_matching_eq_ok_iff hopen]
  constructor
  · rintro ⟨ids, h, -, -⟩
    exact ⟨h.clauses, h.empty, h.fits, h.overlong⟩
  · rintro ⟨hclauses, hempty, hfits, hoverlong⟩
    exact ⟨_, ⟨hclauses, hempty, hfits, hoverlong⟩, rfl, trivial⟩

/-- What an open store says of an overlong pattern that a query meets. -/
theorem run_matching_overlong (hopen : s.isOpen = true) (hclauses : q.clauses ≠ [])
    (hempty : [] ∉ q.clauses) (hfits : q.Fits) (h : q.MeetsOverlong plan s.tables) :
    (matching plan q.toFilter).run s = (.error (.query .overlongPattern), s) := by
  rw [matching, run_ask hopen, Tables.matching,
    Condition.read_toFilter_eq_ok_iff.2 ⟨hclauses, hempty, hfits, rfl⟩, ok_bind,
    if_pos ((s.tables.meetsOverlong_toFilter plan q).2 h)]
  rfl

/-- A query of one term is answered unless the term is overlong and there is a track. -/
theorem isAnswered_term_iff (hs : s.Reachable) {plan : Plan} {t : Term} :
    (Query.mk [[t]]).IsAnswered plan s.tables ↔ (t.IsOverlong → s.tables.tracks = []) := by
  have hmeets : (Query.mk [[t]]).MeetsOverlong plan s.tables ↔
      t.IsOverlong ∧ ¬ s.tables.tracks = [] := by
    rw [Query.meetsOverlong_term_iff, Ne, hs.sound.joined_eq_nil_iff]
  constructor
  · intro h hlong
    exact not_not.1 fun hne => h.overlong (hmeets.2 ⟨hlong, hne⟩)
  · intro h
    refine ⟨by simp, by simp, Query.fits_of_length_le (by simp) (by simp), fun hmeet => ?_⟩
    exact (hmeets.1 hmeet).2 (h (hmeets.1 hmeet).1)

end Store
end Fonoteca
