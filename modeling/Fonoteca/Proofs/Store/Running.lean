import Fonoteca.Store.Basic

/-!
# Running a request

What a request does in a store of which it is known whether it is open and may be written, and what
it has done if it went well or not.

* `StoreM.run_bind_ok` and `StoreM.run_bind_error` put a request together of two parts.
* `Store.run_ask`, `Store.run_change` and `Store.run_addRow` run a single one in a store that allows
  it, `Store.run_ask_closed`, `Store.run_change_closed` and `Store.run_addRow_inMemory` in one that
  does not.
* `Store.change_eq_ok` says what a change that succeeds has done, `Store.change_eq_error` that one
  that fails has done nothing.
-/

set_option autoImplicit false

namespace Fonoteca

variable {α β : Type}

namespace StoreM

/-- A request goes on in the store that its first part leaves. -/
theorem run_bind_ok {request : StoreM α} {s s₁ : Store} {a : α} (h : request.run s = (.ok a, s₁))
    (next : α → StoreM β) : (request >>= next).run s = (next a).run s₁ := by
  change ExceptT.bindCont next (request.run s).1 (request.run s).2 = _
  rw [h]
  rfl

/-- A request that fails in its first part does not go on. -/
theorem run_bind_error {request : StoreM α} {s s₁ : Store} {e : StoreError}
    (h : request.run s = (.error e, s₁)) (next : α → StoreM β) :
    (request >>= next).run s = (.error e, s₁) := by
  change ExceptT.bindCont next (request.run s).1 (request.run s).2 = _
  rw [h]
  rfl

/-- Requests do the same if they begin with the same and go on with the same. -/
theorem run_bind_congr {x y : StoreM α} {f g : α → StoreM β} {s : Store}
    (h : x.run s = y.run s)
    (hnext : ∀ a s₁, y.run s = (.ok a, s₁) → (f a).run s₁ = (g a).run s₁) :
    (x >>= f).run s = (y >>= g).run s := by
  rcases hy : y.run s with ⟨e | a, s₁⟩
  · rw [run_bind_error (h.trans hy), run_bind_error hy]
  · rw [run_bind_ok (h.trans hy), run_bind_ok hy, hnext a s₁ hy]

end StoreM

namespace Store

theorem classify_eq_ok_iff {r : Except Fault α} {a : α} : classify r = .ok a ↔ r = .ok a := by
  cases r with
  | ok b => exact ⟨fun h => congrArg Except.ok (Except.ok.inj h), fun h => congrArg classify h⟩
  | error e => exact iff_of_false (fun h => by cases h) fun h => by cases h

/-- An open store tells what it reads. -/
theorem run_ask {s : Store} (hopen : s.isOpen = true) (read : Tables → Except StoreError α) :
    (ask read).run s = (read s.tables, s) :=
  if_pos hopen

/-- A closed store tells nothing. -/
theorem run_ask_closed {s : Store} (hclosed : s.isOpen = false)
    (read : Tables → Except StoreError α) :
    (ask read).run s = (.error (.connectionLost .closed), s) :=
  if_neg (by simp [hclosed])

/-- Tables that may be written are. -/
theorem run_write {s : Store} (hwrite : s.readOnly = false)
    (update : Tables → Except StoreError (α × Tables)) :
    (write update).run s = match update s.tables with
      | .ok (a, tables) => (.ok a, { s with tables })
      | .error e => (.error e, s) :=
  if_neg (by simp [hwrite])

/-- Tables that may only be read are not written. -/
theorem run_write_readOnly {s : Store} (hread : s.readOnly = true)
    (update : Tables → Except StoreError (α × Tables)) :
    (write update).run s = (.error (.query .readOnly), s) :=
  if_pos hread

/-- An open store is changed by writing its tables. -/
theorem run_change {s : Store} (hopen : s.isOpen = true)
    (update : Tables → Except StoreError (α × Tables)) :
    (change update).run s = (write update).run s :=
  if_pos hopen

/-- A closed store changes nothing. -/
theorem run_change_closed {s : Store} (hclosed : s.isOpen = false)
    (update : Tables → Except StoreError (α × Tables)) :
    (change update).run s = (.error (.connectionLost .closed), s) :=
  if_neg (by simp [hclosed])

/-- Rows of tables in memory cannot be added from outside. -/
theorem run_addRow_inMemory {s : Store} (hmem : s.inMemory = true) (table : String)
    (add : Tables → Except Fault (Int × Tables)) :
    (addRow table add).run s = (.error (.query (.noTable table)), s) :=
  if_pos hmem

/-- Others can, whether the store is open or not. -/
theorem run_addRow {s : Store} (hdisk : s.inMemory = false) (table : String)
    (add : Tables → Except Fault (Int × Tables)) :
    (addRow table add).run s = (write fun t => classify (add t)).run s :=
  if_neg (by simp [hdisk])

theorem write_eq_ok {update : Tables → Except StoreError (α × Tables)} {s s' : Store} {a : α}
    (h : (write update).run s = (.ok a, s')) :
    s.readOnly = false ∧ ∃ u, update s.tables = .ok (a, u) ∧ s' = { s with tables := u } := by
  change (if s.readOnly then _ else _ : _ × Store) = _ at h
  split at h
  · cases h
  · next hwrite =>
    refine ⟨by simpa using hwrite, ?_⟩
    split at h
    · next a' u hu =>
      cases h
      exact ⟨u, hu, rfl⟩
    · cases h

/-- A change that is refused leaves the store as it was. -/
theorem write_eq_error {update : Tables → Except StoreError (α × Tables)} {s s' : Store}
    {e : StoreError} (h : (write update).run s = (.error e, s')) : s' = s := by
  change (if s.readOnly then _ else _ : _ × Store) = _ at h
  split at h
  · cases h
    rfl
  · split at h <;> cases h
    rfl

theorem change_eq_ok {update : Tables → Except StoreError (α × Tables)} {s s' : Store} {a : α}
    (h : (change update).run s = (.ok a, s')) :
    s.isOpen = true ∧ s.readOnly = false ∧
      ∃ u, update s.tables = .ok (a, u) ∧ s' = { s with tables := u } := by
  change (if s.isOpen then _ else _ : _ × Store) = _ at h
  split at h
  · next hopen => exact ⟨hopen, write_eq_ok h⟩
  · cases h

@[inherit_doc write_eq_error]
theorem change_eq_error {update : Tables → Except StoreError (α × Tables)} {s s' : Store}
    {e : StoreError} (h : (change update).run s = (.error e, s')) : s' = s := by
  change (if s.isOpen then _ else _ : _ × Store) = _ at h
  split at h
  · exact write_eq_error h
  · cases h
    rfl

/-- An open store that may be written is changed. -/
theorem run_change_ok {s : Store} (hopen : s.isOpen = true) (hwrite : s.readOnly = false)
    {update : Tables → Except StoreError (α × Tables)} {a : α} {u : Tables}
    (h : update s.tables = .ok (a, u)) :
    (change update).run s = (.ok a, { s with tables := u }) := by
  refine (if_pos hopen).trans ?_
  change (if s.readOnly then _ else _ : _ × Store) = _
  rw [if_neg (by simp [hwrite]), h]

/-- An open store whose tables do not admit a change is left as it is. -/
theorem run_change_error {s : Store} (hopen : s.isOpen = true) (hwrite : s.readOnly = false)
    {update : Tables → Except StoreError (α × Tables)} {e : StoreError}
    (h : update s.tables = .error e) : (change update).run s = (.error e, s) := by
  rw [run_change hopen, run_write hwrite, h]

/-- Tables that may only be read are not changed. -/
theorem run_change_readOnly {s : Store} (hopen : s.isOpen = true) (hread : s.readOnly = true)
    (update : Tables → Except StoreError (α × Tables)) :
    (change update).run s = (.error (.query .readOnly), s) :=
  (if_pos hopen).trans (if_pos hread)

end Store
end Fonoteca
