import Fonoteca.Store.Request

/-!
# Requests and their parts

A request is made of smaller ones, and what it does follows from what they do.

* `Composes` says of a property that the whole has it if its parts do.
* Then a request has it that may fail on the way (`Composes.bindRun`), and so do those that are put
  together of others: writing a track back, and ingesting and scanning (`Composes.updateTrack`,
  **`Composes.populate`**, `Composes.scanFiles`).
-/

set_option autoImplicit false

namespace Fonoteca

/-- A property that the whole has if its parts do. -/
structure Composes (P : (α : Type) → StateM Store α → Prop) : Prop where
  pure {α : Type} (a : α) : P α (Pure.pure a)
  bind {α β : Type} {m : StateM Store α} {f : α → StateM Store β} (hm : P α m)
    (hf : ∀ a, P β (f a)) : P β (m >>= f)

namespace Composes

variable {P : (α : Type) → StateM Store α → Prop} {α β : Type} (hP : Composes P)
include hP

/-! ## Requests that may fail -/

/-- The parts of a request that may fail. -/
theorem bindRun {request : StoreM α} {next : α → StoreM β} (h : P _ request.run)
    (hnext : ∀ a, P _ (next a).run) : P _ (request >>= next).run := by
  refine hP.bind (f := ExceptT.bindCont next) h fun result => ?_
  cases result with
  | ok a => exact hnext a
  | error e => exact hP.pure _

theorem throw (e : StoreError) : P _ (throw e : StoreM α).run :=
  hP.pure _

/-- A request that goes on with a number, known before or asked for. -/
theorem bindFound {found : Option Int} {request : StoreM Int} {next : Int → StoreM β}
    (h : P _ request.run) (hnext : ∀ id, P _ (next id).run) :
    P _ (match found with
      | some id => Pure.pure id >>= next
      | none => request >>= next : StoreM β).run := by
  cases found with
  | some id => exact hnext id
  | none => exact hP.bindRun h hnext

theorem answer {request : StoreM α} (h : P _ request.run) (say : α → Answer) :
    P _ (request.answer say) := by
  refine hP.bind h fun result => ?_
  cases result <;> exact hP.pure _

/-! ## Requests about tracks -/

/-- The numbers that a track refers to are looked at before the tables are. -/
theorem insertTrack {track : Track} {performer album : Int}
    (h : P _ (Store.change fun t => Store.classify (t.insertTrack track performer album)).run) :
    P _ (Store.insertTrack track performer album).run := by
  rw [Store.insertTrack]
  split
  · exact hP.throw _
  · split
    · exact hP.throw _
    · exact h

/-- A track is written back in four parts. -/
theorem updateTrack {track : Track} (hfind : P _ (Store.track? track.id).run)
    (hperformer : P _ (Store.resolvePerformer track.artist).run)
    (halbum : P _ (Store.resolveAlbum track.albumDir track.album track.year).run)
    (hrewrite : ∀ performer album,
      P _ (Store.change fun t => Store.classify (t.rewriteTrack track performer album)).run) :
    P _ (Store.updateTrack track).run := by
  have hrestore : P _ (Store.restoreTrack track).run := by
    refine hP.bindRun hperformer fun performer => hP.bindRun halbum fun album => ?_
    refine hP.bindRun (hrewrite performer album) fun written => ?_
    cases written
    · exact hP.throw _
    · exact hP.pure _
  refine hP.bindRun hfind fun found => ?_
  cases found with
  | none => exact hP.bindRun (hP.throw _) fun _ => hrestore
  | some _ => exact hrestore

theorem answerSearch {plan : Plan} {text : String} (h : P _ (Store.search plan text).run) :
    P _ (answerSearch plan text) := by
  refine hP.bind h fun result => ?_
  cases result <;> exact hP.pure _

/-! ## Ingesting -/

theorem ingest {track : Track} (hperformerNamed : P _ (Store.performerNamed? track.artist).run)
    (halbumNamed : P _ (Store.albumNamed? track.albumDir track.album).run)
    (hperformer : P _ (Store.resolvePerformer track.artist).run)
    (halbum : P _ (Store.resolveAlbum track.albumDir track.album track.year).run)
    (hinsert : ∀ performer album, P _ (Store.insertTrack track performer album).run) :
    P _ (ingest track).run := by
  refine hP.bindRun hperformerNamed fun found => hP.bindFound hperformer fun p => ?_
  refine hP.bindRun halbumNamed fun found => hP.bindFound halbum fun a => ?_
  refine hP.bindRun (hinsert _ _) fun i => ?_
  cases i <;> exact hP.pure _

section

variable (hingest : ∀ track, P _ (Fonoteca.ingest track).run)
include hingest

/-- Tracks are put in one after the other. -/
theorem populate (patience : Patience) (tracks : List Track) : P _ (populate patience tracks) := by
  induction tracks generalizing patience with
  | nil => exact hP.pure _
  | cons track tracks ih =>
    refine hP.bind (hingest track) fun result => ?_
    rcases result with e | _ | new
    · exact hP.pure _
    · exact hP.bind (ih _) fun _ => hP.pure _
    · exact hP.bind (ih _) fun _ => hP.pure _

theorem scanFiles (reader : TagReader) (patience : Patience) (paths : List Path) :
    P _ (scanFiles reader patience paths) := by
  refine hP.bind (hP.populate hingest patience _) fun result => ?_
  rcases result with ⟨accepted, e | report⟩ <;> exact hP.pure _

theorem answerPopulate (patience : Patience) (tracks : List Track) :
    P _ (answerPopulate patience tracks) := by
  refine hP.bind (hP.populate hingest patience _) fun result => ?_
  rcases result with ⟨accepted, e | report⟩ <;> exact hP.pure _

theorem answerScan (reader : TagReader) (patience : Patience) (paths : List Path) :
    P _ (answerScan reader patience paths) := by
  refine hP.bind (hP.scanFiles hingest reader patience paths) fun result => ?_
  rcases result with ⟨accepted, e | summary⟩ <;> exact hP.pure _

end

end Composes
end Fonoteca
