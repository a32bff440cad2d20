import Fonoteca.Proofs.Store.Closing
import Fonoteca.Proofs.Store.Location
import Fonoteca.Store.Library

/-!
# A library keeps what its store has

Nothing that a store needs is anywhere but in its tables.  A library on a disk, which takes them
from its file whenever it is opened and puts them back whenever it is closed, answers as the store
does that keeps them all the time.

* `Library.InStep` says that the file of a library is where its address leads, and that it holds the
  tables of the store unless these are in use and may have changed.
* **`Library.InStep.answer`** : every request keeps that, and is answered as the store answers it.
* **`Library.reopening_unseen`** : closing and opening again does not show, except in memory
  (`Library.reopening_seen_inMemory`).
-/

set_option autoImplicit false

namespace Fonoteca

open Database

namespace Library

variable {l : Library} {c : Connection} {p : Path} {place : List Bytes} {logged : Bool}

/-- The address of a library is the path of its file, for the system as for the database, and beside
the file there is nothing but files under the names that the database may need. -/
def IsPlain (l : Library) : Prop :=
  ∃ p place logged, path? l.address = some p ∧ l.place = .file place logged ∧
    l.disk.locate true p = .ok place ∧
    ∀ ending ∈ companions true, l.disk.root.way? (beside place ending) = none

/-- A library whose file is where its address leads.  The file holds the tables of the store, unless
they are in use and may have changed. -/
structure InStep (c : Connection) (p : Path) (place : List Bytes) (logged : Bool) (l : Library) :
    Prop where
  leads : Leads l.address p place logged c
  isPlace : l.place = .file place logged
  inMemory : l.store.inMemory = false
  readOnly : l.store.readOnly = c.readOnly
  carries : ∃ tables, l.disk.Carries p place tables logged ∧
    (l.store.isOpen = false ∨ l.store.readOnly = true → tables = l.store.tables)

namespace InStep

/-- A library that has just been opened. -/
theorem of_openLibrary {d : Disk Content} {address : String} (hl : d.openLibrary address = .ok l)
    (hplain : l.IsPlain) : ∃ c p place logged, InStep c p place logged l := by
  obtain ⟨p, place, logged, hp, hplace, hway, hbeside⟩ := hplain
  rw [Disk.openLibrary] at hl
  split at hl
  · next store place' disk hopen =>
    cases hl
    obtain rfl : place' = .file place logged := hplace
    obtain ⟨c, hleads, hstore, hfile⟩ := Disk.leads_of_openDatabase hopen hp
    refine ⟨c, p, place, logged, hleads, rfl, ?_, ?_, _, ⟨hway, hbeside, hfile⟩, fun _ => rfl⟩
    · exact congrArg Store.inMemory hstore
    · exact congrArg Store.readOnly hstore
  · cases hl

/-- Once the library is not in use any more, its file holds the tables. -/
theorem settle (h : InStep c p place logged l) :
    (l.disk.settle l.place l.store).Carries p place l.store.tables logged := by
  obtain ⟨tables, hcarries, htables⟩ := h.carries
  rw [Disk.settle, h.isPlace]
  by_cases hopen : l.store.isOpen = true
  · by_cases hread : l.store.readOnly = true
    · obtain rfl := htables (.inr hread)
      rw [if_pos hopen, Disk.keepDatabase, if_pos hread]
      exact hcarries
    · rw [if_pos hopen]
      exact hcarries.keepDatabase (by simpa using hread)
  · obtain rfl := htables (.inl (by simpa using hopen))
    rw [if_neg hopen]
    exact hcarries

theorem close (h : InStep c p place logged l) : InStep c p place logged l.close where
  leads := h.leads
  isPlace := h.isPlace
  inMemory := h.inMemory
  readOnly := h.readOnly
  carries := ⟨_, h.settle, fun _ => rfl⟩

/-- A library is opened again with the tables that it had. -/
theorem reopen (h : InStep c p place logged l) :
    ∃ l', l.reopen = (.done, l') ∧ l'.store = { l.store with isOpen := true } ∧
      InStep c p place logged l' := by
  obtain ⟨d, hopen, hcarries⟩ := h.settle.openDatabase h.leads
  refine ⟨_, by rw [Library.reopen, hopen], ?_, ?_⟩
  · rw [← h.readOnly, ← h.inMemory]
  · exact ⟨h.leads, rfl, rfl, rfl, _, hcarries, fun _ => rfl⟩

/-- A library whose tables have become others, which a store that may only be read never does. -/
theorem afterRequest (h : InStep c p place logged l) {u : Tables}
    (hu : l.store.readOnly = true → u = l.store.tables) :
    InStep c p place logged
      { l with
        store := { l.store with tables := u }
        disk := l.disk.afterRequest l.place l.store { l.store with tables := u } } where
  leads := h.leads
  isPlace := h.isPlace
  inMemory := h.inMemory
  readOnly := h.readOnly
  carries := by
    obtain ⟨tables, hcarries, htables⟩ := h.carries
    rw [Disk.afterRequest, h.isPlace]
    split
    · next hkept =>
      refine ⟨tables, hcarries, fun hfixed => (htables hfixed).trans ?_⟩
      obtain (hclosed : l.store.isOpen = false) | hread := hfixed
      · exact (hkept.resolve_left (by simp [hclosed])).symm
      · exact (hu hread).symm
    · next hchanged =>
      have hwrite : l.store.readOnly = false := by
        by_contra hread
        exact hchanged (.inr (hu (by simpa using hread)))
      exact ⟨u, hcarries.keepDatabase (s := { l.store with tables := u }) hwrite, fun _ => rfl⟩

end InStep

theorem answer_of_ne {request : Request} (hclose : request ≠ .close) (hreopen : request ≠ .reopen)
    (l : Library) : (answer request).run l =
      ((request.run.run l.store).1,
        { l with
          store := (request.run.run l.store).2
          disk := l.disk.afterRequest l.place l.store (request.run.run l.store).2 }) := by
  cases request with
  | close => exact absurd rfl hclose
  | reopen => exact absurd rfl hreopen
  | _ => rfl

theorem answerAll_cons (request : Request) (requests : List Request) (l : Library) :
    (answerAll (request :: requests)).run l =
      (((answer request).run l).1 :: ((answerAll requests).run ((answer request).run l).2).1,
        ((answerAll requests).run ((answer request).run l).2).2) :=
  run_mapM_cons answer request requests l

/-- **A request to a library is answered as its store answers it**, and the library stays in step
with its file. -/
theorem InStep.answer (h : InStep c p place logged l) (request : Request) :
    ∃ l', (Library.answer request).run l = ((request.run.run l.store).1, l') ∧
      l'.store = (request.run.run l.store).2 ∧ InStep c p place logged l' := by
  by_cases hclose : request = .close
  · subst hclose
    exact ⟨l.close, rfl, rfl, h.close⟩
  by_cases hreopen : request = .reopen
  · subst hreopen
    obtain ⟨l', hl', hstore, hstep⟩ := h.reopen
    refine ⟨l', hl', hstore.trans ?_, hstep⟩
    rw [show Request.reopen.run.run l.store = _ from run_reopen l.store,
      if_neg (by simp [h.inMemory])]
  · obtain ⟨u, hu, hs⟩ := frame_run hclose hreopen l.store
    refine ⟨_, answer_of_ne hclose hreopen l, rfl, ?_⟩
    rw [hs]
    exact h.afterRequest hu

/-- **A history is answered by a library as by its store.** -/
theorem InStep.answerAll (h : InStep c p place logged l) (requests : List Request) :
    ∃ l', (Library.answerAll requests).run l = (((Request.runAll requests).run l.store).1, l') ∧
      l'.store = ((Request.runAll requests).run l.store).2 ∧ InStep c p place logged l' := by
  induction requests generalizing l with
  | nil => exact ⟨l, rfl, rfl, h⟩
  | cons request requests ih =>
    obtain ⟨l₁, hl₁, hstore₁, hstep₁⟩ := h.answer request
    obtain ⟨l₂, hl₂, hstore₂, hstep₂⟩ := ih hstep₁
    rw [hstore₁] at hl₂ hstore₂
    refine ⟨l₂, ?_, ?_, hstep₂⟩
    · rw [answerAll_cons, hl₁, hl₂, Request.runAll_cons]
    · rw [hstore₂, Request.runAll_cons]

theorem close_of_closed (hclosed : l.store.isOpen = false) : l.close = l := by
  obtain ⟨address, ⟨tables, isOpen, readOnly, inMemory⟩, place, disk⟩ := l
  obtain rfl : isOpen = false := hclosed
  rfl

/-- What does not show in the answers of a store does not show in those of its library. -/
theorem InStep.reopensUnseen (h : InStep c p place logged l)
    (hstore : ReopensUnseen Request.runAll l.store) : ReopensUnseen Library.answerAll l where
  others requests hclose := by
    obtain ⟨_, hall, -, -⟩ := h.answerAll requests
    obtain ⟨_, hothers, -, -⟩ := h.answerAll (requests.filter fun request => !request.isReopen)
    rw [hall, hothers]
    exact hstore.others requests hclose
  closed between hbetween := by
    obtain ⟨s', hrun, hlater⟩ := hstore.closed between hbetween
    obtain ⟨l', hl', hstore', hstep⟩ := h.answerAll (.close :: (between ++ [.reopen]))
    rw [hrun] at hl' hstore'
    refine ⟨l', hl', fun later => ?_⟩
    obtain ⟨_, hafter, -, -⟩ := hstep.answerAll later
    obtain ⟨_, hbefore, -, -⟩ := h.answerAll later
    rw [hafter, hbefore, hstore']
    exact hlater later

/-! ## A closed library -/

theorem answer_closed (hclosed : l.store.isOpen = false) {request : Request}
    (hreopen : request.isReopen = false) (hrow : request.isRow = false) :
    (answer request).run l = (request.answerClosed, l) := by
  by_cases hclose : request = .close
  · subst hclose
    exact congrArg (Prod.mk Answer.done) (close_of_closed hclosed)
  · rw [answer_of_ne hclose (by simpa [← Request.isReopen_iff] using hreopen),
      Store.run_closed hclosed hreopen hrow, Disk.afterRequest, if_pos (.inr rfl)]

/-- A closed library answers as a closed store does, and nothing changes on its disk. -/
theorem answerAll_closed (hclosed : l.store.isOpen = false) {requests : List Request}
    (hrequests : ∀ request ∈ requests, request.isReopen = false ∧ request.isRow = false) :
    (answerAll requests).run l = (requests.map Request.answerClosed, l) := by
  induction requests with
  | nil => rfl
  | cons request requests ih =>
    obtain ⟨hreopen, hrow⟩ := hrequests request (.head _)
    rw [answerAll_cons, answer_closed hclosed hreopen hrow,
      ih fun request hrequest => hrequests request (.tail _ hrequest), List.map_cons]

/-- **Closing and opening again does not show.**  A closed store gives the answers that need no
tables, and stays as it is; so does a closed library, with all that is on its disk.  When it is open
again, everything is answered as before, and nothing else shows it either: for a store, if it is not
in memory, and for a library, if its address is the path of its file. -/
theorem reopening_unseen :
    (∀ (s : Store) (requests : List Request), s.isOpen = false →
      (∀ request ∈ requests, request.isReopen = false ∧ request.isRow = false) →
        (Request.runAll requests).run s = (requests.map Request.answerClosed, s)) ∧
    (∀ (l : Library) (requests : List Request), l.store.isOpen = false →
      (∀ request ∈ requests, request.isReopen = false ∧ request.isRow = false) →
        (answerAll requests).run l = (requests.map Request.answerClosed, l)) ∧
    (∀ s : Store, s.isOpen = true → s.inMemory = false → ReopensUnseen Request.runAll s) ∧
    ∀ (d : Disk Content) (address : String) (l : Library), d.openLibrary address = .ok l →
      l.IsPlain → ∀ before : List Request, ((answerAll before).run l).2.store.isOpen = true →
        ReopensUnseen answerAll ((answerAll before).run l).2 := by
  refine ⟨fun s requests hclosed => Store.runAll_closed hclosed,
    fun l requests hclosed => answerAll_closed hclosed, fun s => Store.reopensUnseen, ?_⟩
  intro d address l hl hplain before hopen
  obtain ⟨c, p, place, logged, hstep⟩ := InStep.of_openLibrary hl hplain
  obtain ⟨l₁, hl₁, -, hstep₁⟩ := hstep.answerAll before
  rw [hl₁] at hopen ⊢
  exact hstep₁.reopensUnseen (Store.reopensUnseen hopen hstep₁.inMemory)

/-- The library of one file, which was empty. -/
theorem reopening_unseen_oneFile :
    ∃ l, (Disk.oneFile (.bytes [])).openLibrary (Database.address (some Disk.onePath)) = .ok l ∧
      (Request.runAll [.tracks]).run l.close.store =
        ([.refused (.connectionLost .closed)], l.close.store) ∧
      (answerAll [.populate [] none]).run l.close = ([.populated [] {}], l.close) ∧
      ReopensUnseen Request.runAll l.store ∧
      ReopensUnseen answerAll ((answerAll [.resolvePerformer "Ann"]).run l).2 := by
  obtain ⟨hstore, hlibrary, hopen, hfile⟩ := reopening_unseen
  have hl : (Disk.oneFile (.bytes [])).openLibrary (Database.address (some Disk.onePath)) =
      .ok ⟨Database.address (some Disk.onePath), {}, .file Disk.onePlace false,
        Disk.oneFile (.database {} false)⟩ := by
    rw [Disk.openLibrary, Disk.openDatabase_oneFile (.inl ⟨rfl, rfl⟩)]
  refine ⟨_, hl, hstore _ _ rfl (by simp [Request.isReopen, Request.isRow]),
    hlibrary _ _ rfl (by simp [Request.isReopen, Request.isRow]), hopen _ rfl rfl,
    hfile _ _ _ hl ?_ _ (by decide +kernel)⟩
  exact ⟨Disk.onePath, Disk.onePlace, false, Disk.path?_onePath, rfl, Disk.locate_oneFile _,
    by decide +kernel⟩

/-! ## In memory -/

theorem openDatabase_inMemory (d : Disk Content) :
    d.openDatabase "sqlite::memory:" = (.ok ({ inMemory := true }, .memory), d) := by
  have hparse : Address.parse? "sqlite::memory:" = .ok { name := "", inMemory := true } := by
    rw [show "sqlite::memory:" = scheme ++ ":memory:" from rfl,
      Address.parse?_append (by decide +kernel) (by decide +kernel)]
    decide +kernel
  rw [Disk.openDatabase, hparse]
  dsimp only
  rw [Bool.true_or, if_pos rfl]
  rfl

/-- A library in memory is empty when it is opened again. -/
theorem reopen_inMemory (haddress : l.address = "sqlite::memory:") (hplace : l.place = .memory) :
    l.reopen = (.done, { l with store := { inMemory := true } }) := by
  obtain ⟨address, store, place, disk⟩ := l
  subst haddress hplace
  have hsettle : disk.settle .memory store = disk := by
    rw [Disk.settle]
    exact ite_self disk
  rw [Library.reopen, hsettle, openDatabase_inMemory]

/-- A performer that a library in memory knew is not there when it has been opened again. -/
theorem reopening_seen_inMemory :
    ∃ l, (Disk.empty [0x77]).openLibrary "sqlite::memory:" = .ok l ∧ l.store.isOpen = true ∧
      ¬ ReopensUnseen answerAll l := by
  refine ⟨⟨"sqlite::memory:", { inMemory := true }, .memory, Disk.empty [0x77]⟩, ?_, rfl,
    fun h => ?_⟩
  · rw [Disk.openLibrary, openDatabase_inMemory]
  · have hothers := h.others [.resolvePerformer "Ann", .reopen, .performer 1] (by simp)
    rw [answerAll_cons, answerAll_cons .reopen,
      show ∀ l : Library, (answer .reopen).run l = l.reopen from fun _ => rfl,
      reopen_inMemory rfl rfl] at hothers
    exact absurd hothers (by decide +kernel)

end Library
end Fonoteca
