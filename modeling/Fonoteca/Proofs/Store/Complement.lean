import Fonoteca.Proofs.Query.Opposite
import Fonoteca.Proofs.Store.Matching

/-!
# What is found otherwise

A term and its opposite share out the tracks between them, and so do the terms by which a track is
less than a value, equal to it and greater.  This needs no condition on the value, which may be a
number, a decimal literal or a word, nor on what the rows hold: a cell and a value always compare,
and in one way only.

* `Parts ids lists` says that lists share out numbers: each number is in just one of them.
* **`Tables.Sound.parts_joined`** : whatever rows are told apart by, it shares out the tracks.
* **`Store.complements`** : what is found by the operators of one field and one value.
-/

set_option autoImplicit false

namespace Fonoteca

/-- The numbers that are in one of some lists are the given ones, and none is in two of the lists. -/
structure Parts (ids : List Int) (lists : List (List Int)) : Prop where
  disjoint : lists.Pairwise List.Disjoint
  exists_mem_iff : ∀ i, (∃ list ∈ lists, i ∈ list) ↔ i ∈ ids

namespace Tables

/-- **Rows that are told apart share out the tracks.**  A list of all outcomes, each listed once,
gives the lists of the rows with these outcomes. -/
theorem Sound.parts_joined {t : Tables} (h : Sound t) {κ : Type} [DecidableEq κ]
    (outcome : JoinedRow → κ) {outcomes : List κ} (hnodup : outcomes.Nodup)
    (hall : ∀ k, k ∈ outcomes) :
    Parts t.trackIds
      (outcomes.map fun k => (t.joined.filter fun row => outcome row = k).map (·.id)) := by
  have hids : (t.joined.map (·.id)).Nodup := h.joined_ids ▸ h.trackIds.nodup
  constructor
  · refine List.pairwise_map.2 (hnodup.imp fun {k l} hkl i hk hl => ?_)
    obtain ⟨row, hrow, rfl⟩ := List.mem_map.1 hk
    obtain ⟨row', hrow', hid⟩ := List.mem_map.1 hl
    simp only [List.mem_filter, decide_eq_true_eq] at hrow hrow'
    -- no two rows have the same number
    have hsame : row' = row := List.inj_on_of_nodup_map hids hrow'.1 hrow.1 hid
    exact hkl (hrow.2 ▸ hsame ▸ hrow'.2)
  · intro i
    rw [← h.joined_ids]
    simp only [List.mem_map]
    constructor
    · rintro ⟨_, ⟨k, -, rfl⟩, hi⟩
      obtain ⟨row, ⟨hrow, -⟩, rfl⟩ := by simpa using hi
      exact ⟨row, hrow, rfl⟩
    · rintro ⟨row, hrow, rfl⟩
      exact ⟨_, ⟨outcome row, hall _, rfl⟩, by simpa using ⟨row, ⟨hrow, rfl⟩, rfl⟩⟩

end Tables

namespace Store

variable {s : Store}

/-- A query of one term finds the tracks for which the comparison of the term holds. -/
theorem run_matching_term (hs : s.Reachable) (hopen : s.isOpen = true) {plan : Plan} {t : Term}
    (h : t.IsOverlong → s.tables.tracks = []) :
    (matching plan (Query.toFilter ⟨[[t]]⟩)).run s =
      (.ok ((s.tables.joined.filter t.holds).map (·.id)), s) := by
  have hholds : ∀ row, (Query.mk [[t]]).condition.holds row (Query.mk [[t]]).toFilter.binds =
      t.holds row := by
    intro row
    rw [Bool.eq_iff_iff, Condition.holds, Condition.holdsBy_toFilter]
    simp [Term.holds]
  rw [run_matching hopen ((isAnswered_term_iff hs).2 h)]
  simp only [hholds]

/-- And it is refused if the term is overlong and there is a track. -/
theorem run_matching_term_overlong (hs : s.Reachable) (hopen : s.isOpen = true) {plan : Plan}
    {t : Term} (h : t.IsOverlong) (htracks : s.tables.tracks ≠ []) :
    (matching plan (Query.toFilter ⟨[[t]]⟩)).run s = (.error (.query .overlongPattern), s) :=
  run_matching_overlong hopen (by simp) (by simp) (Query.fits_of_length_le (by simp) (by simp))
    (Query.meetsOverlong_term_iff.2 ⟨h, mt hs.sound.joined_eq_nil_iff.1 htracks⟩)

/-- **An operator and its opposite share out the tracks**, and so do `<`, `=` and `>`.  For every
field and every value each of the eight operators finds numbers in ascending order, and together an
operator and its opposite find the number of every track, but neither finds one that the other
finds.  Only an operator that looks for the value may be refused, if the pattern of the value is too
long and there is a track, and then its opposite is refused as well. -/
theorem complements (hs : s.Reachable) (hopen : s.isOpen = true) (field : Field) (value : String) :
    ∃ found : Operator → List Int,
      (∀ plan op, (Term.IsOverlong ⟨field, op, value⟩ → s.tables.tracks = []) →
        (matching plan (Query.toFilter ⟨[[⟨field, op, value⟩]]⟩)).run s = (.ok (found op), s) ∧
          (found op).Pairwise (· < ·)) ∧
      (∀ plan op, Term.IsOverlong ⟨field, op, value⟩ → s.tables.tracks ≠ [] →
        ∀ op' ∈ [op, op.opposite],
        (matching plan (Query.toFilter ⟨[[⟨field, op', value⟩]]⟩)).run s =
          (.error (.query .overlongPattern), s)) ∧
      (∀ op, Parts s.tables.trackIds [found op, found op.opposite]) ∧
      Parts s.tables.trackIds [found .less, found .equal, found .greater] := by
  refine ⟨fun op => (s.tables.joined.filter (Term.holds ⟨field, op, value⟩)).map (·.id),
    fun plan op h => ⟨run_matching_term hs hopen h, hs.sound.ascending_filter _⟩,
    fun plan op hlong htracks op' hop' => ?_, fun op => ?_, ?_⟩
  · have hlong' : Term.IsOverlong ⟨field, op', value⟩ := by
      rcases List.mem_pair.1 hop' with rfl | rfl
      · exact hlong
      · exact ⟨op.isSubstring_opposite.trans hlong.1, hlong.2⟩
    exact run_matching_term_overlong hs hopen hlong' htracks
  · have hopposite : Term.holds ⟨field, op.opposite, value⟩ =
        fun row => !Term.holds ⟨field, op, value⟩ row :=
      funext (Term.holds_opposite ⟨field, op, value⟩)
    have hparts := hs.sound.parts_joined (Term.holds ⟨field, op, value⟩)
      (show [true, false].Nodup by decide) (by decide)
    simpa [← hopposite] using hparts
  · have hways : ∀ o, Term.holds ⟨field, .ofOrdering o, value⟩ =
        fun row => decide (Term.outcome field value row = o) := by
      intro o
      funext row
      rw [Term.holds_ofOrdering, beq_eq_decide]
    have hparts := hs.sound.parts_joined (Term.outcome field value)
      (show [Ordering.lt, .eq, .gt].Nodup by decide) (by rintro ⟨⟩ <;> decide)
    simp only [List.map_cons, List.map_nil, ← hways] at hparts
    exact hparts

/-- The track of the number 1 compares with `1e0`, which is a literal of this number, and with a
word, which is more than every number. -/
theorem complements_oneTrack :
    (∃ less notLess, (matching .lavish (Query.toFilter ⟨[[⟨.track, .less, "1e0"⟩]]⟩)).run oneTrack =
        (.ok less, oneTrack) ∧
      (matching .lavish (Query.toFilter ⟨[[⟨.track, .notLess, "1e0"⟩]]⟩)).run oneTrack =
        (.ok notLess, oneTrack) ∧ Parts [1] [less, notLess]) ∧
    ∃ less equal greater, (matching .lavish (Query.toFilter ⟨[[⟨.year, .less, "next"⟩]]⟩)).run
      oneTrack = (.ok less, oneTrack) ∧ Parts [1] [less, equal, greater] := by
  obtain ⟨found, hfound, -, hopposite, -⟩ := complements reachable_oneTrack rfl .track "1e0"
  obtain ⟨found', hfound', -, -, hways⟩ := complements reachable_oneTrack rfl .year "next"
  have hshort : ∀ {field op value}, op = .less ∨ op = .notLess →
      Term.IsOverlong ⟨field, op, value⟩ → oneTrack.tables.tracks = [] := by
    rintro field op value (rfl | rfl) ⟨hop, -⟩ <;> cases hop
  exact ⟨⟨_, _, (hfound .lavish .less (hshort (.inl rfl))).1,
    (hfound .lavish .notLess (hshort (.inr rfl))).1, hopposite .less⟩, _, _, _,
    (hfound' .lavish .less (hshort (.inl rfl))).1, hways⟩

/-- **Two operators that are opposite need not find anything**: looking for a long text is refused,
and so is looking for the tracks without it. -/
theorem complements_overlong :
    oneTrack.Reachable ∧ oneTrack.isOpen = true ∧ 1 ∈ oneTrack.tables.trackIds ∧
    ∀ op ∈ [Operator.like, .notLike], (matching .sparing (Query.toFilter
      ⟨[[⟨.title, op, String.ofList (List.replicate 50000 'x')⟩]]⟩)).run oneTrack =
        (.error (.query .overlongPattern), oneTrack) := by
  refine ⟨reachable_oneTrack, rfl, by decide, fun op hop => ?_⟩
  have hsubstring : op.isSubstring = true := by
    rcases List.mem_pair.1 hop with rfl | rfl <;> rfl
  exact run_matching_term_overlong reachable_oneTrack rfl
    (Term.isOverlong_replicate (by decide) hsubstring _ _) (by decide)

end Store
end Fonoteca
