import Fonoteca.Proofs.Store.Extension
import Fonoteca.Proofs.Store.Permanence

/-!
# The names of performers are trimmed

The store trims the name of a performer whom it adds.  So all names are trimmed as long as no row is
added from outside, past the store.

* `Store.ReachableBy admits` are the stores that come about from a new one by requests of some kind
  only.  What these requests keep of the tables holds in all of them
  (**`Store.ReachableBy.tables_of_keeps`**).
* `Request.isInside` are the requests that add no row from outside.
* **`Store.ReachableBy.trimmed`** : by such requests no name comes in that is not trimmed.
-/

set_option autoImplicit false

namespace Fonoteca

/-! ## Stores that are reached by some requests -/

namespace Store

/-- The stores that come about from a new one by requests of some kind. -/
inductive ReachableBy (admits : Request → Bool) : Store → Prop
  /-- A new store has empty tables. -/
  | new (readOnly inMemory : Bool) : ReachableBy admits { readOnly, inMemory }
  /-- A database on the disk may be opened again, for reading only or not. -/
  | opened {s : Store} (readOnly : Bool) (hdisk : s.inMemory = false) (h : ReachableBy admits s) :
      ReachableBy admits { s with isOpen := true, readOnly }
  /-- A store answers a request of this kind, whether it succeeds or not. -/
  | answered {s : Store} (request : Request) (hadmits : admits request = true)
      (h : ReachableBy admits s) : ReachableBy admits (request.run.run s).2

namespace ReachableBy

variable {admits : Request → Bool} {s : Store}

theorem reachable (h : ReachableBy admits s) : s.Reachable := by
  induction h with
  | new readOnly inMemory => exact .new readOnly inMemory
  | opened readOnly hdisk _ ih => exact ih.opened readOnly hdisk
  | answered request _ _ ih => exact ih.answered request

/-- **What empty tables have and requests of this kind keep** holds in every such store. -/
theorem tables_of_keeps {P : Tables → Prop} (hempty : P {})
    (hkeeps : ∀ request, admits request = true → request ≠ .close → request ≠ .reopen →
      Stepwise (fun t u => P t → P u) request.run)
    (h : ReachableBy admits s) : P s.tables := by
  induction h with
  | new => exact hempty
  | opened _ _ _ ih => exact ih
  | answered request hadmits _ ih =>
    refine tables_run_of_steps hempty (hkeeps request hadmits) fun u hu => ?_
    induction hu with
    | refl => exact ih
    | tail _ hlast ih => exact hlast ih

end ReachableBy
end Store

/-! ## Trimmed names -/

namespace Tables

/-- The names of all performers are trimmed. -/
def Trimmed (t : Tables) : Prop :=
  ∀ p ∈ t.performers, Text.trim p.name = p.name

variable {t u : Tables}

/-- Tables that are extended get trimmed names only. -/
theorem Extends.trimmed (hext : Extends t u) (h : Trimmed t) : Trimmed u := by
  intro p hp
  obtain ⟨new, hnames, hnew⟩ := hext.names
  have hentry : (p.id, p.name) ∈ t.names ++ new := hnames ▸ mem_names_iff.2 ⟨p, hp, rfl, rfl⟩
  rcases List.mem_append.1 hentry with hold | hadded
  · obtain ⟨q, hq, -, hname⟩ := mem_names_iff.1 hold
    rw [← hname]
    exact h q hq
  · exact hnew (p.id, p.name) hadded

/-- A track that is written anew leaves the performers alone. -/
theorem performers_rewriteTrack {track : Track} {performer album : Int} {written : Bool}
    (h : t.rewriteTrack track performer album = .ok (written, u)) :
    u.performers = t.performers := by
  rw [rewriteTrack] at h
  split at h
  · cases h
    rfl
  · obtain ⟨_, -, h⟩ := bind_eq_ok h
    cases h
    rfl

/-- A performer whose name is looked up has a trimmed name. -/
theorem Trimmed.trim_of_named (h : Trimmed t) {name : String} {id : Int}
    (hid : t.performerNamed? name = some id) : Text.trim name = name := by
  obtain ⟨p, hp, rfl⟩ := Option.map_eq_some_iff.1 hid
  have hname : p.name = name := by simpa using List.find?_some hp
  rw [← hname]
  exact h p (List.mem_of_find?_eq_some hp)

end Tables

/-! ## Requests -/

open Tables (Trimmed Addition)

/-- Whether a request adds no row from outside. -/
def Request.isInside : Request → Bool
  | .addPerformerRow _ _ => false
  | .addAlbumRow _ _ _ => false
  | .addTrackRow _ _ _ _ _ _ _ => false
  | _ => true

theorem trimmed_of_addition (t u : Tables) (h : Addition t u) : Trimmed t → Trimmed u :=
  Tables.Extends.trimmed (Tables.Additions.extends (.single h))

/-- **Such a request keeps the names trimmed.** -/
theorem stepwise_trimmed {request : Request} (h : request.isInside = true)
    (hclose : request ≠ .close) (hreopen : request ≠ .reopen) :
    Stepwise (fun t u => Trimmed t → Trimmed u) request.run := by
  by_cases hadd : request.isAddition = true
  · exact (stepwise_addition hadd).mono trimmed_of_addition
  cases request with
  | updateTrack track =>
    refine Stepwise.answer (.updateTrack ((stepwise_resolvePerformer _).mono trimmed_of_addition)
      ((stepwise_resolveAlbum _ _ _).mono trimmed_of_addition) fun _ _ _ _ _ hu => .single ?_) _
    rw [Trimmed, Trimmed, Tables.performers_rewriteTrack hu]
    exact id
  | addPerformerRow | addAlbumRow | addTrackRow => cases h
  | close => exact absurd rfl hclose
  | reopen => exact absurd rfl hreopen
  | _ => exact absurd rfl hadd

/-- **Where no row came from outside, the names of all performers are trimmed.** -/
theorem Store.ReachableBy.trimmed {s : Store} (h : s.ReachableBy Request.isInside) :
    Trimmed s.tables :=
  h.tables_of_keeps (by simp [Trimmed]) fun _ => stepwise_trimmed

end Fonoteca
