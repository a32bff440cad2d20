import Fonoteca.Proofs.Store.Stepwise

/-!
# The stores that there can be

* `Store.Reachable` are the stores that come about from a new one: it answers requests in any
  order, and its database may be opened again in another mode.
* **`Store.Reachable.steps`** : the tables of such a store come from empty ones by steps.
-/

set_option autoImplicit false

namespace Fonoteca

open Tables (Steps)

namespace Store

/-- The stores that come about from a new one. -/
inductive Reachable : Store → Prop
  /-- A new store has empty tables. -/
  | new (readOnly inMemory : Bool) : Reachable { readOnly, inMemory }
  /-- A database on the disk may be opened again, for reading only or not. -/
  | opened {s : Store} (readOnly : Bool) (hdisk : s.inMemory = false) (h : Reachable s) :
      Reachable { s with isOpen := true, readOnly }
  /-- A store answers a request, of whatever kind and whether it succeeds or not. -/
  | answered {s : Store} (request : Request) (h : Reachable s) : Reachable (request.run.run s).2

/-- The tables of a store come from empty ones by steps. -/
theorem Reachable.steps {s : Store} (h : Reachable s) : Steps {} s.tables := by
  induction h with
  | new => exact .refl
  | opened _ _ _ ih => exact ih
  | answered request _ ih =>
    exact tables_run_of_steps (P := Steps {}) .refl stepwise_run fun _ hu => ih.trans hu

/-- A history of requests leads from a reachable store to a reachable store. -/
theorem Reachable.runAll {s : Store} (h : Reachable s) (requests : List Request) :
    Reachable ((Request.runAll requests).run s).2 := by
  induction requests generalizing s with
  | nil => exact h
  | cons request requests ih =>
    rw [Request.runAll_cons]
    exact ih (h.answered request)

/-! ## A library of one track -/

/-- A library that has one track, with a title of which a letter was lost. -/
def oneTrack : Store where
  tables := {
    performers := [⟨1, .unknown, "Iris"⟩]
    albums := [⟨1, "music", unknown, 2018⟩]
    tracks := [⟨1, 1, 1, "music/a.mp3", "R\ufffdin", 1, 2018, unknown⟩] }

theorem reachable_oneTrack : oneTrack.Reachable := by
  have hperformer := (Reachable.new false false).answered (.addPerformerRow (some 2) (some "Iris"))
  have halbum := hperformer.answered (.addAlbumRow (some "music") (some unknown) (some 2018))
  have htrack := halbum.answered (.addTrackRow (some 1) (some 1) (some "music/a.mp3")
    (some "R\ufffdin") (some 1) (some 2018) (some unknown))
  exact htrack

end Store

/-- The track of `Store.oneTrack`, as a scan finds it. -/
def lostLetter : Track :=
  { artist := "Iris", title := "R\ufffdin", number := 1, path := "music/a.mp3" }

end Fonoteca
