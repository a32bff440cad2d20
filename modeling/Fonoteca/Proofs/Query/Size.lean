import Fonoteca.Proofs.Lists
import Fonoteca.Query.Basic
import Fonoteca.Store.Condition
import Mathlib.Order.Nat

/-!
# How large a condition may be

The database takes a condition as long as it has places for no more values, and is no higher as a
tree, than it allows.  A chain of conditions leans to the left: each joins all that came before it,
so the chain grows by one with each, and by more only where something higher comes in.

* `Condition.height` is the height of a condition, `Query.height` that of the condition which a
  query stands for.
* `Extent.addGroup_eq_ok_iff` : a group is taken if what has been read is not too large with it.
* `Query.Fits` : the condition of a query is not too large.  **`Query.fits_of_length_le`** and
  **`Query.Fits.length_le`** say this by numbers of terms.
-/

set_option autoImplicit false

namespace Fonoteca

/-! ## Chains -/

theorem le_chainHeight_left (h k : Nat) : h ≤ chainHeight h k := by
  rw [chainHeight]
  split <;> omega

theorem le_chainHeight_right (h k : Nat) : k ≤ chainHeight h k := by
  rw [chainHeight]
  split <;> omega

/-- A chain is as high as each end of it. -/
theorem le_foldl_chainHeight (h : Nat) (parts : List Nat) : h ≤ parts.foldl chainHeight h := by
  induction parts generalizing h with
  | nil => exact le_rfl
  | cons k parts ih => exact (le_chainHeight_left h k).trans (ih _)

/-- A chain is as high as each of its parts. -/
theorem le_foldl_chainHeight_of_mem {k : Nat} {parts : List Nat} (hk : k ∈ parts) (h : Nat) :
    k ≤ parts.foldl chainHeight h := by
  induction parts generalizing h with
  | nil => cases hk
  | cons l parts ih =>
    rcases List.mem_cons.1 hk with rfl | hk
    · exact (le_chainHeight_right h k).trans (le_foldl_chainHeight _ _)
    · exact ih hk _

/-- A chain that is higher than what is still to come grows by one with each part. -/
theorem foldl_chainHeight_of_le {h : Nat} (hpos : h ≠ 0) {parts : List Nat}
    (hle : ∀ k ∈ parts, k ≤ h) : parts.foldl chainHeight h = h + parts.length := by
  induction parts generalizing h with
  | nil => rfl
  | cons k parts ih =>
    have hstep : chainHeight h k = h + 1 := by
      rw [chainHeight, if_neg hpos, max_eq_left (hle k (.head _))]
    rw [List.foldl_cons, hstep, ih (Nat.succ_ne_zero h), List.length_cons]
    · omega
    · exact fun l hl => (hle l (.tail _ hl)).trans (Nat.le_succ h)

/-! ## Conditions -/

/-- The height of a group of comparisons. -/
def groupHeight (group : List Comparison) : Nat :=
  (group.map Comparison.height).foldl chainHeight 0

/-- The height of a condition. -/
def Condition.height (c : Condition) : Nat :=
  (c.map groupHeight).foldl chainHeight 0

theorem Comparison.height_eq_or (c : Comparison) : c.height = 3 ∨ c.height = 4 := by
  rw [height]
  split <;> simp

/-- **A group is two or three steps higher than it has comparisons.** -/
theorem groupHeight_bounds {group : List Comparison} (hne : group ≠ []) :
    group.length + 2 ≤ groupHeight group ∧ groupHeight group ≤ group.length + 3 := by
  match group with
  | [c] =>
    have hc := c.height_eq_or
    simp only [groupHeight, List.map_cons, List.map_nil, List.foldl_cons, List.foldl_nil,
      chainHeight, if_true, List.length_singleton]
    omega
  | c :: d :: group =>
    have hc := c.height_eq_or
    have hd := d.height_eq_or
    have hstart : chainHeight (chainHeight 0 c.height) d.height = max c.height d.height + 1 := by
      simp only [chainHeight, if_true]
      exact if_neg (by omega)
    have hrest : ∀ k ∈ group.map Comparison.height, k ≤ max c.height d.height + 1 := by
      intro k hk
      obtain ⟨e, -, rfl⟩ := List.mem_map.1 hk
      have he := e.height_eq_or
      omega
    rw [groupHeight, List.map_cons, List.map_cons, List.foldl_cons, List.foldl_cons, hstart,
      foldl_chainHeight_of_le (Nat.succ_ne_zero _) hrest, List.length_map, List.length_cons,
      List.length_cons]
    omega

/-- A chain of groups is at most three steps higher than it has comparisons. -/
theorem foldl_groupHeight_le {groups : List (List Comparison)} (hne : [] ∉ groups) {h n : Nat}
    (hle : h ≤ n + 3) (hpos : h ≠ 0 → n ≠ 0) :
    (groups.map groupHeight).foldl chainHeight h ≤ n + groups.flatten.length + 3 := by
  induction groups generalizing h n with
  | nil => simpa using hle
  | cons group groups ih =>
    rw [List.mem_cons, not_or] at hne
    have hgroup := (groupHeight_bounds (Ne.symm hne.1)).2
    have hlength := List.length_pos_iff.2 (Ne.symm hne.1)
    have hstep : chainHeight h (groupHeight group) ≤ n + group.length + 3 := by
      rw [chainHeight]
      split
      · omega
      · next h0 =>
        have hn := hpos h0
        omega
    have hrest := ih hne.2 hstep (fun _ => by omega)
    rw [List.map_cons, List.foldl_cons, List.flatten_cons, List.length_append]
    omega

/-! ## Reading group by group -/

namespace Extent

/-- The database takes as much. -/
structure IsAllowed (e : Extent) : Prop where
  places : e.places ≤ maxPlaces
  height : e.height ≤ maxHeight

/-- What has been read with one more group. -/
def withGroup (e : Extent) (group : List Comparison) : Extent :=
  ⟨e.places + group.length, chainHeight e.height (groupHeight group)⟩

theorem addPlace_eq_ok_iff {e e' : Extent} :
    e.addPlace = .ok e' ↔ e.places < maxPlaces ∧ e' = { e with places := e.places + 1 } := by
  rw [addPlace]
  split <;> simp [eq_comm] <;> omega

theorem link_eq_ok_iff {e e' : Extent} {height : Nat} :
    e.link height = .ok e' ↔ chainHeight e.height height ≤ maxHeight ∧
      e' = { e with height := chainHeight e.height height } := by
  rw [link]
  split <;> simp [eq_comm] <;> omega

theorem addComparison_eq_ok_iff {e e' : Extent} {c : Comparison} :
    e.addComparison c = .ok e' ↔ e.places < maxPlaces ∧ chainHeight e.height c.height ≤ maxHeight ∧
      e' = ⟨e.places + 1, chainHeight e.height c.height⟩ := by
  simp only [addComparison, bind_eq_ok_iff, addPlace_eq_ok_iff, link_eq_ok_iff, and_assoc,
    exists_and_left, exists_eq_left]

/-- Comparisons are taken one by one if they are not too large all together. -/
theorem foldlM_addComparison_eq_ok_iff {e e' : Extent} (he : e.IsAllowed)
    (group : List Comparison) :
    group.foldlM addComparison e = .ok e' ↔ e'.IsAllowed ∧
      e' = ⟨e.places + group.length, (group.map Comparison.height).foldl chainHeight e.height⟩ := by
  induction group generalizing e with
  | nil =>
    change Except.ok e = .ok e' ↔ _
    rw [Except.ok.injEq]
    exact ⟨fun h => h ▸ ⟨he, rfl⟩, fun h => h.2.symm⟩
  | cons c group ih =>
    simp only [List.foldlM_cons, bind_eq_ok_iff, addComparison_eq_ok_iff, List.length_cons,
      List.map_cons, List.foldl_cons]
    constructor
    · rintro ⟨next, ⟨hplaces, hheight, rfl⟩, hrest⟩
      have hnext : (⟨e.places + 1, chainHeight e.height c.height⟩ : Extent).IsAllowed :=
        ⟨hplaces, hheight⟩
      rw [ih hnext] at hrest
      rwa [← Nat.add_assoc, Nat.add_right_comm]
    · rintro ⟨hallowed, rfl⟩
      -- what is not too large at the end is not too large before
      have hplaces : e.places + 1 ≤ maxPlaces := by
        have := hallowed.places
        dsimp only at this
        omega
      have hheight := (le_foldl_chainHeight _ _).trans hallowed.height
      have hnext : (⟨e.places + 1, chainHeight e.height c.height⟩ : Extent).IsAllowed :=
        ⟨hplaces, hheight⟩
      refine ⟨_, ⟨hplaces, hheight, rfl⟩, (ih hnext).2 ⟨hallowed, ?_⟩⟩
      rw [← Nat.add_assoc, Nat.add_right_comm]

/-- **A group is taken if what has been read with it is not too large.** -/
theorem addGroup_eq_ok_iff {e e' : Extent} (he : e.IsAllowed) (group : List Comparison) :
    e.addGroup group = .ok e' ↔ e'.IsAllowed ∧ e' = e.withGroup group := by
  have hinner : (⟨e.places, 0⟩ : Extent).IsAllowed := ⟨he.places, Nat.zero_le _⟩
  simp only [addGroup, bind_eq_ok_iff, foldlM_addComparison_eq_ok_iff hinner, link_eq_ok_iff]
  constructor
  · rintro ⟨inner, ⟨hallowed, rfl⟩, hheight, rfl⟩
    exact ⟨⟨hallowed.places, hheight⟩, rfl⟩
  · rintro ⟨hallowed, rfl⟩
    have hgroup := (le_chainHeight_right e.height (groupHeight group)).trans hallowed.height
    exact ⟨⟨e.places + group.length, groupHeight group⟩, ⟨⟨hallowed.places, hgroup⟩, rfl⟩,
      hallowed.height, rfl⟩

end Extent

/-! ## Queries -/

/-- Whether an operator denies a test. -/
def Operator.isDenied : Operator → Bool
  | .notEqual => true
  | .notLike => true
  | _ => false

/-- The test of an operator, apart from denial. -/
def Operator.test : Operator → Test
  | .equal => .equal
  | .notEqual => .equal
  | .like => .like
  | .notLike => .like
  | .less => .less
  | .greater => .greater
  | .notLess => .atLeast
  | .notGreater => .atMost

/-- The comparison that a term stands for. -/
def Term.comparison (t : Term) : Comparison :=
  ⟨t.op.isDenied, t.field, t.op.test⟩

namespace Query

/-- The condition that a query stands for. -/
def condition (q : Query) : Condition :=
  q.clauses.map (·.map Term.comparison)

/-- The height of the condition of a query. -/
def height (q : Query) : Nat :=
  q.condition.height

/-- The condition of a query is not too large, with the conditions behind it by which the tables are
joined. -/
structure Fits (q : Query) : Prop where
  places : q.clauses.flatten.length ≤ maxPlaces
  height : q.height + joinCount ≤ maxHeight

theorem length_flatten_condition (q : Query) :
    q.condition.flatten.length = q.clauses.flatten.length := by
  rw [condition, ← List.map_flatten, List.length_map]

/-- **Queries of up to 995 terms fit**, however these make up clauses. -/
theorem fits_of_length_le {q : Query} (hempty : [] ∉ q.clauses)
    (h : q.clauses.flatten.length ≤ 995) : q.Fits := by
  have hgroups : [] ∉ q.condition := by simpa [condition] using hempty
  have hheight := foldl_groupHeight_le hgroups (Nat.zero_le 3) (by simp)
  rw [q.length_flatten_condition] at hheight
  constructor
  · rw [maxPlaces]
    omega
  · rw [height, Condition.height, joinCount, maxHeight]
    omega

/-- **A query that fits has clauses of up to 996 terms.** -/
theorem Fits.length_le {q : Query} (h : q.Fits) {ts : List Term} (hts : ts ∈ q.clauses) :
    ts.length ≤ 996 := by
  by_contra hlong
  have hne : ts.map Term.comparison ≠ [] := by
    rintro hnil
    rw [List.map_eq_nil_iff.1 hnil] at hlong
    simp at hlong
  have hmem : groupHeight (ts.map Term.comparison) ∈ q.condition.map groupHeight :=
    List.mem_map_of_mem (List.mem_map_of_mem hts)
  have hgroup := (groupHeight_bounds hne).1
  have hheight := le_foldl_chainHeight_of_mem hmem 0
  have hfits := h.height
  rw [List.length_map] at hgroup
  rw [Query.height, Condition.height, joinCount, maxHeight] at hfits
  omega

end Query
end Fonoteca
