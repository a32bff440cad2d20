import Fonoteca.Proofs.Query.Recognition
import Fonoteca.Proofs.Text.Trimming

/-!
# Queries and their text

A query written for the search bar reads back as itself exactly if it is normal, and the queries
that come from the search bar are exactly the normal ones.

* `Term.IsNormal` and `Query.IsNormal` say what normal is: no clause is empty, operators are
  admitted, and values are trimmed and hold no separator.
* `Query.clausesOf_join` reads back what was written.  The separators are written between blanks, so
  a value may end or begin with half a separator; each piece then carries blanks around what was
  written (`Padded`), and trimming drops them again.
* `Query.parse?_render_iff` is the result.
-/

set_option autoImplicit false

namespace Fonoteca

/-! ## Normal queries -/

/-- A term that can be written and read back. -/
structure Term.IsNormal (t : Term) : Prop where
  /-- The field admits the operator. -/
  admitted : t.op ∈ t.field.operators
  /-- No blank stands at either end of the value. -/
  trimmed : Text.trim t.value = t.value
  /-- The value does not end its clause. -/
  not_bars : ¬ Twice '|' t.value.toList
  /-- The value does not end its term. -/
  not_ampersands : ¬ Twice '&' t.value.toList

/-- A query that can be written and read back. -/
structure Query.IsNormal (q : Query) : Prop where
  clauses_ne_nil : q.clauses ≠ []
  clause_ne_nil : ∀ ts ∈ q.clauses, ts ≠ []
  term_isNormal : ∀ ts ∈ q.clauses, ∀ t ∈ ts, t.IsNormal

/-- A term of a piece without separators is normal. -/
theorem Term.Spells.isNormal {cs : List Char} {t : Term} (h : t.Spells cs) (hb : ¬ Twice '|' cs)
    (ha : ¬ Twice '&' cs) : t.IsNormal := by
  obtain ⟨hop, rest, hrest, hvalue⟩ := h
  have hcs : t.value.toList <:+: cs := by
    rw [hvalue, String.toList_ofList]
    have hlast : rest <:+ Text.trimChars cs := ⟨_, hrest.symm⟩
    exact ((Text.trimChars_isInfix rest).trans hlast.isInfix).trans (Text.trimChars_isInfix cs)
  refine ⟨hop, ?_, fun h => hb (h.mono hcs), fun h => ha (h.mono hcs)⟩
  rw [hvalue, Text.trim, String.toList_ofList, Text.trimChars_trimChars]

/-- **What the search bar gives is normal.** -/
theorem Query.isNormal_of_parse? {s : String} {q : Query} (h : parse? s = some q) :
    q.IsNormal := by
  obtain ⟨body, -, hne, hq⟩ := parse?_eq_some_iff.1 h
  refine ⟨hq ▸ hne, fun ts hts => ?_, fun ts hts t ht => ?_⟩
  · rw [hq] at hts
    exact (mem_clausesOf.1 hts).2
  · rw [hq] at hts
    obtain ⟨⟨piece, hpiece, rfl⟩, -⟩ := mem_clausesOf.1 hts
    obtain ⟨part, hpart, hspells⟩ := mem_parseClause.1 ht
    have hbars := (pieces_splitTwice '|' body).not_twice hpiece
    have hparts := pieces_splitTwice '&' piece
    exact hspells.isNormal (fun h => hbars (h.mono (hparts.isInfix hpart))) (hparts.not_twice hpart)

/-! ## Blanks around pieces -/

/-- There are only spaces. -/
def IsSpaces (cs : List Char) : Prop :=
  ∀ c ∈ cs, c = ' '

theorem IsSpaces.isBlankText {cs : List Char} (h : IsSpaces cs) : Text.IsBlankText cs := by
  intro c hc
  rw [h c hc]
  decide

/-- The second text is the first one with spaces around it. -/
def Padded (cs ds : List Char) : Prop :=
  ∃ a b, IsSpaces a ∧ IsSpaces b ∧ ds = a ++ cs ++ b

/-- Texts with a separator between spaces from each to the next. -/
def join (sep : Char) (xs : List (List Char)) : List Char :=
  [' ', sep, sep, ' '].intercalate xs

theorem join_cons_cons (sep : Char) (x y : List Char) (xs : List (List Char)) :
    join sep (x :: y :: xs) = x ++ ' ' :: sep :: sep :: ' ' :: join sep (y :: xs) := by
  simp [join, List.intercalate_cons_cons]

theorem not_twice_pad {sep : Char} (hsep : sep ≠ ' ') {a cs b : List Char} (ha : IsSpaces a)
    (hb : IsSpaces b) (h : ¬ Twice sep cs) : ¬ Twice sep (a ++ cs ++ b) := by
  have hspaces : ∀ {c : List Char}, IsSpaces c → sep ∉ c := fun hc hmem => hsep (hc sep hmem)
  refine not_twice_append (not_twice_append ?_ h (.inl ?_)) ?_ (.inr ?_)
  · exact not_twice_of_not_mem (hspaces ha)
  · exact fun hlast => hspaces ha (List.mem_of_getLast? hlast)
  · exact not_twice_of_not_mem (hspaces hb)
  · exact fun hhead => hspaces hb (List.mem_of_head? hhead)

/-- Texts without a separator stay without it when they are joined by another. -/
theorem not_twice_join {sep other : Char} (hsep : sep ≠ ' ') (hother : sep ≠ other)
    {xs : List (List Char)} (h : ∀ x ∈ xs, ¬ Twice sep x) : ¬ Twice sep (join other xs) := by
  match xs with
  | [] => exact not_twice_of_not_mem (by simp [join])
  | [x] => simpa [join] using h x
  | x :: y :: xs =>
    have hrest := not_twice_join hsep hother fun z hz => h z (List.mem_cons_of_mem x hz)
    have hmiddle : ¬ Twice sep [' ', other, other, ' '] :=
      not_twice_of_not_mem (by simp [hsep, hother])
    rw [join_cons_cons]
    refine not_twice_append (h x (by simp)) ?_ (.inr (by simp [hsep.symm]))
    exact not_twice_append hmiddle hrest (.inl (by simp [hsep.symm]))

/-- **Splitting undoes joining**, up to the spaces around the pieces. -/
theorem splitTwice_join {sep : Char} (hsep : sep ≠ ' ') {a b : List Char} (ha : IsSpaces a)
    (hb : IsSpaces b) {xs : List (List Char)} (hne : xs ≠ []) (h : ∀ x ∈ xs, ¬ Twice sep x) :
    List.Forall₂ Padded xs (splitTwice sep (a ++ join sep xs ++ b)) := by
  match xs with
  | [x] =>
    have hx : join sep [x] = x := by simp [join]
    rw [hx, splitTwice_of_not_twice (not_twice_pad hsep ha hb (h x (by simp)))]
    exact .cons ⟨a, b, ha, hb, rfl⟩ .nil
  | x :: y :: xs =>
    have hspace : IsSpaces [' '] := by simp [IsSpaces]
    have hx : ¬ Twice sep ((a ++ x ++ [' ']) ++ [sep]) := by
      refine not_twice_append (not_twice_pad hsep ha hspace (h x (by simp))) ?_ (.inl ?_)
      · exact not_twice_iff.2 (List.isChain_singleton sep)
      · simp [hsep.symm]
    have hrest := splitTwice_join hsep hspace hb (List.cons_ne_nil y xs)
      fun z hz => h z (List.mem_cons_of_mem x hz)
    have hcut : a ++ join sep (x :: y :: xs) ++ b
        = (a ++ x ++ [' ']) ++ sep :: sep :: ([' '] ++ join sep (y :: xs) ++ b) := by
      simp [join_cons_cons]
    rw [hcut, splitTwice_append _ hx]
    exact .cons ⟨a, [' '], ha, hspace, rfl⟩ hrest

/-! ## Terms -/

namespace Term

/-- The characters of a term as it is written. -/
def chars (t : Term) : List Char :=
  lead t.field t.op ++ t.value.toList

@[simp] theorem toList_renderTerm (t : Term) : (Query.renderTerm t).toList = t.chars := by
  simp [Query.renderTerm, chars, lead]

theorem lead_eq_cons (f : Field) (o : Operator) : ∃ cs, lead f o = '*' :: cs ∧ cs ≠ [] ∧
    ∀ c ∈ cs.getLast?, Text.isBlank c = false ∧ c ≠ '|' ∧ c ≠ '&' := by
  cases f <;> cases o <;>
  · refine ⟨_, rfl, by decide, ?_⟩
    rintro c ⟨⟩
    decide

theorem not_mem_lead {sep : Char} (hsep : sep = '|' ∨ sep = '&') (f : Field) (o : Operator) :
    sep ∉ lead f o := by
  rcases hsep with rfl | rfl <;> cases f <;> cases o <;> decide

theorem IsNormal.trimChars_chars {t : Term} (h : t.IsNormal) :
    Text.trimChars t.chars = t.chars := by
  obtain ⟨cs, hcs, hne, hlast⟩ := lead_eq_cons t.field t.op
  have htrim : Text.trimChars t.value.toList = t.value.toList := by
    rw [← Text.toList_trim, h.trimmed]
  rw [Text.trimChars_eq_self_iff] at htrim ⊢
  rw [chars, hcs]
  refine ⟨by simp; decide, fun c hc => ?_⟩
  cases hv : t.value.toList.getLast? with
  | none =>
    rw [List.getLast?_eq_none_iff.1 hv, List.append_nil, List.getLast?_cons_of_ne_nil hne] at hc
    exact (hlast c hc).1
  | some d =>
    rw [List.getLast?_append, hv] at hc
    exact htrim.2 c (hv.trans hc)

theorem IsNormal.not_twice_chars {t : Term} (h : t.IsNormal) {sep : Char}
    (hsep : sep = '|' ∨ sep = '&') : ¬ Twice sep t.chars := by
  have hlead := not_mem_lead hsep t.field t.op
  have hvalue : ¬ Twice sep t.value.toList := by
    rcases hsep with rfl | rfl
    · exact h.not_bars
    · exact h.not_ampersands
  exact not_twice_append (not_twice_of_not_mem hlead) hvalue
    (.inl fun hlast => hlead (List.mem_of_getLast? hlast))

/-- A normal term is read back, whatever spaces are around it. -/
theorem IsNormal.parse?_padded {t : Term} (h : t.IsNormal) {cs : List Char}
    (hcs : Padded t.chars cs) : parse? cs = some t := by
  obtain ⟨a, b, ha, hb, rfl⟩ := hcs
  refine parse?_eq_some_iff.2 ⟨h.admitted, t.value.toList, ?_, ?_⟩
  · rw [Text.trimChars_pad ha.isBlankText hb.isBlankText, h.trimChars_chars, chars]
  · exact h.trimmed.symm

end Term

/-! ## Queries -/

namespace Query

/-- The characters of a clause as it is written. -/
def clauseChars (ts : List Term) : List Char :=
  join '&' (ts.map Term.chars)

theorem toList_render (q : Query) :
    q.render.toList = marker.toList ++ join '|' (q.clauses.map clauseChars) := by
  have hclause : ∀ ts : List Term,
      (" && ".intercalate (ts.map renderTerm)).toList = clauseChars ts := by
    intro ts
    simp [String.toList_intercalate, clauseChars, join, Function.comp_def]
  simp [render, join, String.toList_intercalate, Function.comp_def, hclause]

/-- Pieces that read as the items of a list read as that list. -/
theorem filterMap_eq_of_forall₂ {α β : Type} {f : β → Option α} {xs : List α} {ys : List β}
    (h : List.Forall₂ (fun x y => f y = some x) xs ys) : ys.filterMap f = xs := by
  induction h with
  | nil => rfl
  | cons hxy _ ih => rw [List.filterMap_cons_some hxy, ih]

/-- A clause of normal terms is read back, whatever spaces are around it. -/
theorem parseClause_padded {ts : List Term} (hne : ts ≠ []) (h : ∀ t ∈ ts, t.IsNormal)
    {cs : List Char} (hcs : Padded (clauseChars ts) cs) : parseClause cs = ts := by
  obtain ⟨a, b, ha, hb, rfl⟩ := hcs
  have hsep : '&' ≠ ' ' := by decide
  have hsplit := splitTwice_join hsep ha hb (List.map_eq_nil_iff.not.2 hne)
    (by simpa using fun t ht => (h t ht).not_twice_chars (.inr rfl))
  rw [List.forall₂_map_left_iff] at hsplit
  refine filterMap_eq_of_forall₂ ?_
  refine ((List.forall₂_and_left _ _).2 ⟨h, hsplit⟩).imp ?_
  rintro t piece ⟨ht, hpiece⟩
  exact ht.parse?_padded hpiece

/-- **The clauses of a normal query are read back.** -/
theorem clausesOf_join {q : Query} (h : q.IsNormal) :
    clausesOf (join '|' (q.clauses.map clauseChars)) = q.clauses := by
  have hbars : ∀ cs ∈ q.clauses.map clauseChars, ¬ Twice '|' cs := by
    intro cs hcs
    obtain ⟨ts, hts, rfl⟩ := List.mem_map.1 hcs
    refine not_twice_join (by decide) (by decide) ?_
    simpa using fun t ht => (h.term_isNormal ts hts t ht).not_twice_chars (.inl rfl)
  have hspaces : IsSpaces [] := by simp [IsSpaces]
  have hsplit := splitTwice_join (by decide) hspaces hspaces
    (List.map_eq_nil_iff.not.2 h.clauses_ne_nil) hbars
  rw [List.nil_append, List.append_nil, List.forall₂_map_left_iff] at hsplit
  have hread : List.Forall₂ (fun ts piece => parseClause piece = ts) q.clauses
      (splitTwice '|' (join '|' (q.clauses.map clauseChars))) := by
    refine ((List.forall₂_and_left _ _).2 ⟨fun ts hts => And.intro (h.clause_ne_nil ts hts)
      (h.term_isNormal ts hts), hsplit⟩).imp ?_
    rintro ts piece ⟨⟨hne, hterms⟩, hpiece⟩
    exact parseClause_padded hne hterms hpiece
  have hmap : (splitTwice '|' (join '|' (q.clauses.map clauseChars))).map parseClause
      = q.clauses := by
    rw [← List.forall₂_eq_eq_eq, List.forall₂_map_left_iff]
    exact hread.flip
  rw [clausesOf, hmap, List.filter_eq_self]
  simpa using h.clause_ne_nil

/-- A normal query that is written is read back. -/
theorem IsNormal.parse?_render {q : Query} (h : q.IsNormal) : parse? q.render = some q := by
  have hclauses := clausesOf_join h
  refine parse?_eq_some_iff.2 ⟨_, toList_render q, ?_, hclauses.symm⟩
  rw [hclauses]
  exact h.clauses_ne_nil

/-- **Reading undoes writing on the normal queries, and the search bar gives no others.** -/
theorem parse?_render_iff (q : Query) :
    (parse? q.render = some q ↔ q.IsNormal) ∧ ((∃ s, parse? s = some q) ↔ q.IsNormal) := by
  refine ⟨⟨isNormal_of_parse?, IsNormal.parse?_render⟩, ⟨?_, fun h => ⟨q.render, h.parse?_render⟩⟩⟩
  rintro ⟨s, hs⟩
  exact isNormal_of_parse? hs

end Query
end Fonoteca
