import Mathlib.Data.Nat.Notation

/-!
# Lists made of pieces, and computations made of parts

* `map_eq_map_iff_of_alike` : two maps tell the same lists apart if they tell elements apart alike.
* `exists_flatten_split` : where an element of joined lists stands.
* `intercalate_append_cons` : lists that are joined by a separator, around one of them.
* `bind_eq_ok_iff` : a computation succeeds if both of its parts do.
* `foldlM_preserves` : what no step along a list changes is the same at its end.
-/

set_option autoImplicit false

namespace Fonoteca

variable {α β γ : Type}

/-- Two maps tell the same lists apart if they tell the elements of one list apart alike. -/
theorem map_eq_map_iff_of_alike {f : α → β} {g : α → γ} {xs ys : List α}
    (h : ∀ x ∈ xs, ∀ y, f x = f y ↔ g x = g y) : xs.map f = ys.map f ↔ xs.map g = ys.map g := by
  induction xs generalizing ys with
  | nil => simp
  | cons x xs ih =>
    cases ys with
    | nil => simp
    | cons y ys =>
      have hfirst := h x List.mem_cons_self y
      have hrest : xs.map f = ys.map f ↔ xs.map g = ys.map g :=
        ih fun z hz => h z (List.mem_cons_of_mem _ hz)
      simp only [List.map_cons, List.cons.injEq, hfirst, hrest]

/-- An element of joined lists stands in one of the lists, and behind the lists before it. -/
theorem exists_flatten_split {lists : List (List α)} {k : ℕ} {a : α}
    (h : lists.flatten[k]? = some a) :
    ∃ before xs ys after, lists = before ++ (xs ++ a :: ys) :: after ∧
      before.flatten.length + xs.length = k := by
  induction lists generalizing k with
  | nil => simp at h
  | cons list lists ih =>
    rw [List.flatten_cons] at h
    rcases Nat.lt_or_ge k list.length with hk | hk
    · rw [List.getElem?_append_left hk, List.getElem?_eq_getElem hk, Option.some.injEq] at h
      refine ⟨[], list.take k, list.drop (k + 1), lists, ?_, by simp [Nat.le_of_lt hk]⟩
      rw [← h, List.getElem_cons_drop, List.take_append_drop, List.nil_append]
    · rw [List.getElem?_append_right hk] at h
      obtain ⟨before, xs, ys, after, rfl, hlength⟩ := ih h
      refine ⟨list :: before, xs, ys, after, rfl, ?_⟩
      rw [List.flatten_cons, List.length_append]
      omega

/-- Behind the first piece each has the separator in front of it. -/
theorem intercalate_cons_eq (sep y : List α) (ys : List (List α)) :
    sep.intercalate (y :: ys) = y ++ ys.flatMap (sep ++ ·) := by
  induction ys generalizing y with
  | nil => simp
  | cons z zs ih => simp [List.intercalate_cons_cons, ih]

/-- The pieces before some piece have the separator behind them, those after it in front of them. -/
theorem intercalate_append_cons (sep : List α) (xs : List (List α)) (y : List α)
    (ys : List (List α)) :
    sep.intercalate (xs ++ y :: ys) = xs.flatMap (· ++ sep) ++ (y ++ ys.flatMap (sep ++ ·)) := by
  induction xs with
  | nil => exact intercalate_cons_eq sep y ys
  | cons x xs ih =>
    rw [List.cons_append, List.intercalate_cons_of_ne_nil (by simp), ih, List.flatMap_cons,
      List.append_assoc (x ++ sep)]

/-- A computation that succeeds does so in both of its parts. -/
theorem bind_eq_ok {ε : Type} {x : Except ε α} {f : α → Except ε β} {b : β}
    (h : x >>= f = .ok b) : ∃ a, x = .ok a ∧ f a = .ok b := by
  cases x with
  | error e => cases h
  | ok a => exact ⟨a, rfl, h⟩

/-- A computation succeeds if both of its parts do. -/
theorem bind_eq_ok_iff {ε : Type} {x : Except ε α} {f : α → Except ε β} {b : β} :
    x >>= f = .ok b ↔ ∃ a, x = .ok a ∧ f a = .ok b := by
  refine ⟨bind_eq_ok, ?_⟩
  rintro ⟨a, rfl, h⟩
  exact h

/-- A computation of which the first part succeeds goes on with the second. -/
theorem ok_bind {ε : Type} (a : α) (f : α → Except ε β) : (Except.ok a >>= f) = f a :=
  rfl

/-- What no step changes is the same after all steps, if none of them fails. -/
theorem foldlM_preserves {ε : Type} {g : β → α → Except ε β} {f : β → γ}
    (hstep : ∀ {b x b'}, g b x = .ok b' → f b' = f b) {xs : List α} {b b' : β}
    (h : xs.foldlM g b = .ok b') : f b' = f b := by
  induction xs generalizing b with
  | nil =>
    cases h
    rfl
  | cons x xs ih =>
    rw [List.foldlM_cons] at h
    obtain ⟨c, hfirst, hrest⟩ := bind_eq_ok h
    exact (ih hrest).trans (hstep hfirst)

end Fonoteca
