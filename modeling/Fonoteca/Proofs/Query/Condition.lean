import Fonoteca.Proofs.Query.Size
import Mathlib.Data.List.Forall2

/-!
# The condition that a query writes

The filter of a query is a text, and the store reads it as a condition.  The condition has one
comparison for each term, in groups as the query has clauses, and takes the values of the terms in
the order in which the filter lists them.

* `Lexes cs ts` says that characters make up tokens by themselves, whatever follows them.
* `Condition.read_toFilter_eq_ok_iff` : a filter is read as the condition of the query if there are
  clauses, none of them empty, and the condition is not too large.
* `Condition.holdsBy_toFilter` says when the condition of a query is true, by whatever notion of
  truth for its terms.
-/

set_option autoImplicit false

namespace Fonoteca

/-! ## Tokens -/

namespace Token

/-- The tokens that some characters complete after a mode, and the mode that they leave. -/
def feed : Mode → List Char → List Token × Mode
  | m, [] => ([], m)
  | .inLiteral seen, c :: cs =>
    if c = '\'' then
      let r := feed .between cs
      (.literal (String.ofList seen.reverse) :: r.1, r.2)
    else feed (.inLiteral (c :: seen)) cs
  | .between, c :: cs =>
    let r := feed (step .between c).2 cs
    ((step .between c).1 ++ r.1, r.2)
  | .inWord seen, c :: cs =>
    let r := feed (step (.inWord seen) c).2 cs
    ((step (.inWord seen) c).1 ++ r.1, r.2)
  | .inSign seen, c :: cs =>
    let r := feed (step (.inSign seen) c).2 cs
    ((step (.inSign seen) c).1 ++ r.1, r.2)

/-- What characters complete comes first, whatever follows them. -/
theorem lexFrom_append (m : Mode) (cs ds : List Char) :
    lexFrom m (cs ++ ds) = (feed m cs).1 ++ lexFrom (feed m cs).2 ds := by
  fun_induction feed m cs with
  | case1 m => rfl
  | case2 seen cs r ih => simp [lexFrom, ih, r]
  | case3 seen c cs hc ih => simp [lexFrom, hc, ih]
  | case4 c cs r ih => simp [lexFrom, ih, r]
  | case5 seen c cs r ih => simp [lexFrom, ih, r]
  | case6 seen c cs r ih => simp [lexFrom, ih, r]

theorem feed_append (m : Mode) (cs ds : List Char) :
    feed m (cs ++ ds)
      = ((feed m cs).1 ++ (feed (feed m cs).2 ds).1, (feed (feed m cs).2 ds).2) := by
  fun_induction feed m cs with
  | case1 m => rfl
  | case2 seen cs r ih => simp [feed, ih, r]
  | case3 seen c cs hc ih => simp [feed, hc, ih]
  | case4 c cs r ih => simp [feed, ih, r]
  | case5 seen c cs r ih => simp [feed, ih, r]
  | case6 seen c cs r ih => simp [feed, ih, r]

/-- The characters are the tokens, with no token begun at either end. -/
def Lexes (cs : List Char) (ts : List Token) : Prop :=
  feed .between cs = (ts, .between)

theorem Lexes.append {cs ds : List Char} {ts us : List Token} (hc : Lexes cs ts)
    (hd : Lexes ds us) : Lexes (cs ++ ds) (ts ++ us) := by
  rw [Lexes] at hc hd ⊢
  rw [feed_append, hc, hd]

theorem Lexes.intercalate {sep : List Char} {st : List Token} (hs : Lexes sep st) {α : Type}
    {cs : α → List Char} {ts : α → List Token} (xs : List α) (h : ∀ x ∈ xs, Lexes (cs x) (ts x)) :
    Lexes (sep.intercalate (xs.map cs)) (st.intercalate (xs.map ts)) := by
  match xs with
  | [] => rfl
  | [x] => simpa using h x
  | x :: y :: xs =>
    have hrest := Lexes.intercalate hs (y :: xs) fun z hz => h z (List.mem_cons_of_mem x hz)
    simpa [List.intercalate_cons_cons] using ((h x (by simp)).append hs).append hrest

theorem Lexes.lex_eq {s : String} {ts : List Token} (h : Lexes s.toList ts) : lex s = ts := by
  have := lexFrom_append .between s.toList []
  rw [List.append_nil, h] at this
  simpa [lex, lexFrom, finish] using this

/-! ## Tokens between keywords -/

theorem splitAt_of_not_mem {keyword : String} {ts : List Token} (h : .word keyword ∉ ts) :
    splitAt keyword ts = [ts] := by
  induction ts with
  | nil => rfl
  | cons t ts ih =>
    rw [List.mem_cons, not_or] at h
    rw [splitAt, if_neg (Ne.symm h.1), ih h.2]

theorem splitAt_append {keyword : String} {ts : List Token} (h : .word keyword ∉ ts)
    (us : List Token) :
    splitAt keyword (ts ++ .word keyword :: us) = ts :: splitAt keyword us := by
  induction ts with
  | nil => rw [List.nil_append, splitAt, if_pos rfl]
  | cons t ts ih =>
    rw [List.mem_cons, not_or] at h
    rw [List.cons_append, splitAt, if_neg (Ne.symm h.1), ih h.2]

/-- Cutting at a keyword undoes joining by it. -/
theorem splitAt_intercalate {keyword : String} {xs : List (List Token)} (hne : xs ≠ [])
    (h : ∀ x ∈ xs, .word keyword ∉ x) : splitAt keyword ([.word keyword].intercalate xs) = xs := by
  match xs with
  | [x] => simpa using splitAt_of_not_mem (h x (by simp))
  | x :: y :: xs =>
    have hrest := splitAt_intercalate (List.cons_ne_nil y xs)
      fun z hz => h z (List.mem_cons_of_mem x hz)
    rw [List.intercalate_cons_cons, List.append_assoc, List.singleton_append,
      splitAt_append (h x (by simp)), hrest]

end Token

/-! ## The comparison of a term -/

/-- The tokens of an operator in front of the column. -/
def Operator.tokensBefore (o : Operator) : List Token :=
  if o.isDenied then [.word "NOT"] else []

/-- The tokens of an operator behind the column. -/
def Operator.tokensAfter (o : Operator) : List Token :=
  match o.test with
  | .equal => [.sign "=", .hole]
  | .less => [.sign "<", .hole]
  | .greater => [.sign ">", .hole]
  | .atLeast => [.sign ">=", .hole]
  | .atMost => [.sign "<=", .hole]
  | .like => [.word "LIKE", .hole, .word "ESCAPE", .literal "\\"]

namespace Term

/-- The tokens of a term. -/
def tokens (t : Term) : List Token :=
  t.op.tokensBefore ++ .word t.field.column :: t.op.tokensAfter

theorem lexes_before (o : Operator) : Token.Lexes o.before.toList o.tokensBefore := by
  cases o <;> rfl

theorem feed_column (f : Field) :
    Token.feed .between f.column.toList = ([], .inWord f.column.toList.reverse) := by
  cases f <;> rfl

theorem feed_after (o : Operator) (seen : List Char) :
    Token.feed (.inWord seen) o.after.toList
      = (.word (String.ofList seen.reverse) :: o.tokensAfter, .between) := by
  cases o <;> rfl

theorem lexes_predicate (t : Term) : Token.Lexes t.predicate.toList t.tokens := by
  have hrest : Token.Lexes (t.field.column.toList ++ t.op.after.toList)
      (.word t.field.column :: t.op.tokensAfter) := by
    rw [Token.Lexes, Token.feed_append, feed_column, feed_after]
    simp
  simpa [predicate, tokens] using (lexes_before t.op).append hrest

/-- The tokens of a term read as its comparison. -/
theorem read_tokens (t : Term) (rest : List Token) :
    Comparison.read (t.tokens ++ rest) = some (t.comparison, rest) := by
  obtain ⟨f, o, v⟩ := t
  cases f <;> cases o <;> rfl

theorem keyword_not_mem_tokens {keyword : String} (h : keyword = "AND" ∨ keyword = "OR")
    (t : Term) : .word keyword ∉ t.tokens := by
  obtain ⟨f, o, v⟩ := t
  rcases h with rfl | rfl <;> cases f <;> cases o <;> simp [tokens, Operator.tokensBefore,
    Operator.tokensAfter, Operator.isDenied, Operator.test, Field.column]

end Term

/-! ## The condition of a query -/

namespace Query

/-- The filter has the value of each term in its place. -/
theorem forall₂_binds (q : Query) {R : Term → Bind → Prop} (h : ∀ t, R t t.bind) :
    List.Forall₂ R q.clauses.flatten q.toFilter.binds :=
  List.forall₂_map_right_iff.2 (List.forall₂_same.2 fun t _ => h t)

/-- The tokens of a clause between its parentheses. -/
def clauseTokens (ts : List Term) : List Token :=
  [.word "AND"].intercalate (ts.map Term.tokens)

/-- The tokens of a clause. -/
def groupTokens (ts : List Term) : List Token :=
  .opening :: (clauseTokens ts ++ [.closing])

theorem lexes_clauseText (ts : List Term) : Token.Lexes (clauseText ts).toList (groupTokens ts) := by
  have hand : Token.Lexes " AND ".toList [.word "AND"] := rfl
  have hopening : Token.Lexes "(".toList [.opening] := rfl
  have hclosing : Token.Lexes ")".toList [.closing] := rfl
  have hterms := hand.intercalate ts fun t _ => t.lexes_predicate
  simpa [clauseText, groupTokens, clauseTokens, String.toList_intercalate, Function.comp_def]
    using (hopening.append hterms).append hclosing

/-- **The tokens of a filter.** -/
theorem lex_toFilter (q : Query) :
    Token.lex q.toFilter.clause = [.word "OR"].intercalate (q.clauses.map groupTokens) := by
  have hor : Token.Lexes " OR ".toList [.word "OR"] := rfl
  have hclauses := hor.intercalate q.clauses fun ts _ => lexes_clauseText ts
  refine Token.Lexes.lex_eq ?_
  simpa [toFilter, String.toList_intercalate, Function.comp_def] using hclauses

theorem or_not_mem_groupTokens (ts : List Term) : .word "OR" ∉ groupTokens ts := by
  have hterms : .word "OR" ∉ clauseTokens ts := by
    rw [clauseTokens]
    induction ts with
    | nil => simp
    | cons t ts ih =>
      have ht := t.keyword_not_mem_tokens (.inr rfl)
      cases ts with
      | nil => simpa using ht
      | cons u us => simpa [List.intercalate_cons_cons, ht] using ih
  simp [groupTokens, hterms]

end Query

namespace Condition

/-- A group of comparisons is read up to its parenthesis. -/
theorem readGroup_clauseTokens (next : String) {ts : List Term} (hne : ts ≠ []) :
    readGroup next (Token.splitAt "AND" (Query.clauseTokens ts ++ [.closing]))
      = .ok (ts.map Term.comparison) := by
  match ts with
  | [t] =>
    have hand : .word "AND" ∉ t.tokens ++ [.closing] := by
      simp [t.keyword_not_mem_tokens (.inl rfl)]
    have hone : Query.clauseTokens [t] = t.tokens := by simp [Query.clauseTokens]
    rw [hone, Token.splitAt_of_not_mem hand, readGroup, t.read_tokens]
    rfl
  | t :: u :: ts =>
    have hrest := readGroup_clauseTokens next (List.cons_ne_nil u ts)
    have hcut : Query.clauseTokens (t :: u :: ts) ++ [.closing]
        = t.tokens ++ .word "AND" :: (Query.clauseTokens (u :: ts) ++ [.closing]) := by
      simp [Query.clauseTokens, List.intercalate_cons_cons]
    have hread := t.read_tokens []
    rw [List.append_nil] at hread
    rw [hcut, Token.splitAt_append (t.keyword_not_mem_tokens (.inl rfl))]
    cases hsplit : Token.splitAt "AND" (Query.clauseTokens (u :: ts) ++ [.closing]) with
    | nil =>
      rw [hsplit] at hrest
      cases hrest
    | cons piece pieces =>
      rw [hsplit] at hrest
      rw [readGroup, hread, hrest]
      · rfl
      · simp

/-- An empty clause is refused at its closing parenthesis. -/
theorem readGroup_empty (next : String) :
    readGroup next (Token.splitAt "AND" (Query.clauseTokens [] ++ [.closing]))
      = .error (.syntaxError ")") :=
  rfl

/-- Clauses behind what has been read are taken if none is empty and all together are not too
large. -/
theorem readGroups_groupTokens {e : Extent} (he : e.IsAllowed) (clauses : List (List Term))
    {c : Condition} :
    readGroups e (clauses.map Query.groupTokens) = .ok c ↔
      [] ∉ clauses ∧ e.places + clauses.flatten.length ≤ maxPlaces ∧
        ((clauses.map (·.map Term.comparison)).map groupHeight).foldl chainHeight e.height +
          joinCount ≤ maxHeight ∧
        c = clauses.map (·.map Term.comparison) := by
  induction clauses generalizing e c with
  | nil =>
    rw [List.map_nil, readGroups]
    split
    · next h => exact iff_of_false (fun h => by cases h) fun hok => absurd hok.2.2.1 (not_le.2 h)
    · next h =>
      rw [Except.ok.injEq]
      exact ⟨fun hc => ⟨List.not_mem_nil, he.places, not_lt.1 h, hc.symm⟩, fun hok => hok.2.2.2.symm⟩
  | cons ts clauses ih =>
    rw [List.map_cons, Query.groupTokens, readGroups]
    by_cases hts : ts = []
    · simp only [hts, readGroup_empty]
      exact iff_of_false (fun h => by cases h) fun hok => hok.1 (.head _)
    · simp only [readGroup_clauseTokens _ hts, ok_bind, bind_eq_ok_iff,
        Extent.addGroup_eq_ok_iff he]
      simp only [List.mem_cons, not_or, List.flatten_cons, List.length_append, List.map_cons,
        List.foldl_cons]
      constructor
      · rintro ⟨next, ⟨hallowed, rfl⟩, groups, hrest, hc⟩
        obtain ⟨hempty, hplaces, hheight, rfl⟩ := (ih hallowed).1 hrest
        rw [Extent.withGroup, List.length_map, Nat.add_assoc] at hplaces
        exact ⟨⟨Ne.symm hts, hempty⟩, hplaces, hheight, (Except.ok.inj hc).symm⟩
      · rintro ⟨⟨-, hempty⟩, hplaces, hheight, rfl⟩
        rw [← Nat.add_assoc] at hplaces
        have hnext : (e.withGroup (ts.map Term.comparison)).IsAllowed := by
          rw [Extent.withGroup, List.length_map]
          exact ⟨(Nat.le_add_right _ _).trans hplaces,
            (le_foldl_chainHeight _ _).trans ((Nat.le_add_right _ _).trans hheight)⟩
        refine ⟨_, ⟨hnext, rfl⟩, _, (ih hnext).2 ⟨hempty, ?_, hheight, rfl⟩, rfl⟩
        rwa [Extent.withGroup, List.length_map]

/-- **The filter of a query reads as its condition** if there are clauses, none of them is empty, and
the condition is not too large. -/
theorem read_toFilter_eq_ok_iff {q : Query} {c : Condition} :
    read q.toFilter.clause = .ok c ↔
      q.clauses ≠ [] ∧ [] ∉ q.clauses ∧ q.Fits ∧ c = q.condition := by
  rw [read, Query.lex_toFilter]
  by_cases hnone : q.clauses = []
  · rw [hnone]
    exact iff_of_false (fun h => by cases h) fun h => h.1 rfl
  · have hor : ∀ x ∈ q.clauses.map Query.groupTokens, .word "OR" ∉ x := by
      intro x hx
      obtain ⟨ts, -, rfl⟩ := List.mem_map.1 hx
      exact Query.or_not_mem_groupTokens ts
    have hstart : ({} : Extent).IsAllowed := ⟨Nat.zero_le _, Nat.zero_le _⟩
    rw [Token.splitAt_intercalate (mt List.map_eq_nil_iff.1 hnone) hor,
      readGroups_groupTokens hstart, Nat.zero_add]
    exact ⟨fun ⟨hempty, hplaces, hheight, hc⟩ => ⟨hnone, hempty, ⟨hplaces, hheight⟩, hc⟩,
      fun ⟨_, hempty, hfits, hc⟩ => ⟨hempty, hfits.places, hfits.height, hc⟩⟩

/-! ## When it is true -/

theorem groupHolds_of_forall₂ {truth : Comparison → Bind → Bool} {value : Term → Bool}
    {ts us : List Term} {bs : List Bind}
    (h : List.Forall₂ (fun t b => truth t.comparison b = value t) (ts ++ us) bs) :
    groupHolds truth (ts.map Term.comparison) bs = ts.all value := by
  induction ts generalizing bs with
  | nil => rfl
  | cons t ts ih =>
    cases h with
    | cons ht hts => rw [List.map_cons, groupHolds, List.all_cons, ht, ih hts]

/-- The condition of some clauses is true as soon as all terms of one of them are, whatever stands
for their values, as long as each term has the same truth for it. -/
theorem holdsBy_of_forall₂ {truth : Comparison → Bind → Bool} {value : Term → Bool}
    {clauses : List (List Term)} {bs : List Bind}
    (h : List.Forall₂ (fun t b => truth t.comparison b = value t) clauses.flatten bs) :
    holdsBy truth (clauses.map (·.map Term.comparison)) bs =
      clauses.any fun ts => ts.all value := by
  induction clauses generalizing bs with
  | nil => rfl
  | cons ts clauses ih =>
    rw [List.flatten_cons] at h
    have hrest := List.forall₂_drop_append bs ts clauses.flatten h.flip
    rw [List.map_cons, holdsBy, List.any_cons, groupHolds_of_forall₂ h, List.length_map,
      ih hrest.flip]

/-- **The condition of a query is true**, by a notion of truth for its terms, if all terms of some
clause are. -/
theorem holdsBy_toFilter (truth : Comparison → Bind → Bool) (q : Query) :
    q.condition.holdsBy truth q.toFilter.binds = true ↔
      ∃ ts ∈ q.clauses, ∀ t ∈ ts, truth t.comparison t.bind = true := by
  rw [Query.condition, holdsBy_of_forall₂ (q.forall₂_binds fun _ => rfl)]
  simp only [List.any_eq_true, List.all_eq_true]

end Condition
end Fonoteca
