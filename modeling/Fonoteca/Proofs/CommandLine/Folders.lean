import Fonoteca.Proofs.CommandLine.Libraries
import Fonoteca.Proofs.CommandLine.Steps
import Fonoteca.Proofs.Store.Filing
import Fonoteca.Proofs.Store.Reopening

/-!
# Tracks keep to their folders

Whoever changes a track on the command line changes everything about it but its path.  So however
often it is written back, its album stays one of the folder that its file was found in.

* `filed_action` : every command keeps the tracks filed.
* `Disk.Tended` are the disks on which nothing but the commands, and requests in good order to
  libraries that are opened there, have written libraries.
* **`Disk.Tended.filed`** : in all these libraries each track is on an album of its folder, and the
  names of all performers are trimmed.
-/

set_option autoImplicit false

namespace Fonoteca

open ActionM
open Tables (Filed KeepsFiled Sound)

/-! ## The commands that write -/

namespace Action

variable {s : Stage}

theorem filed_newPerson (p : Person) : Leads KeepsFiled (newPerson p) s :=
  (leads_request (filed_addPerson p)).bind fun _ _ => leads_print _

theorem filed_newGroup (g : Group) : Leads KeepsFiled (newGroup g) s :=
  (leads_request (filed_addGroup g)).bind fun _ _ => leads_print _

theorem filed_addPerson (p : Person) : Leads KeepsFiled (addPerson p) s := by
  refine (leads_request (stepwise_ask _)).bind fun found _ => ?_
  cases found with
  | some id => exact leads_throw _
  | none => exact filed_newPerson p

theorem filed_addGroup (g : Group) : Leads KeepsFiled (addGroup g) s := by
  refine (leads_request (stepwise_ask _)).bind fun found _ => ?_
  cases found with
  | some id => exact leads_throw _
  | none => exact filed_newGroup g

theorem filed_ensureRecord (name : String) (kind : PerformerKind) :
    Leads KeepsFiled (ensureRecord name kind) s := by
  cases kind with
  | person =>
    refine (leads_request (stepwise_ask _)).bind fun found _ => ?_
    cases found with
    | some id => exact leads_pure ()
    | none => exact filed_newPerson _
  | group =>
    refine (leads_request (stepwise_ask _)).bind fun found _ => ?_
    cases found with
    | some id => exact leads_pure ()
    | none => exact filed_newGroup _
  | unknown => exact leads_pure ()

theorem filed_classify (name : String) (kind : PerformerKind) :
    Leads KeepsFiled (classify name kind) s := by
  refine (leads_require (stepwise_ask _)).bind fun id _ => ?_
  refine (leads_request (filed_setKind id kind)).bind fun _ _ => ?_
  exact (filed_ensureRecord name kind).bind fun _ _ => leads_print _

theorem filed_updatePerson (id : Int) (changes : PersonChanges) :
    Leads KeepsFiled (updatePerson id changes) s := by
  refine (leads_require (stepwise_ask _)).bind fun person _ => ?_
  exact (leads_request (Fonoteca.filed_updatePerson _)).bind fun _ _ => leads_print _

theorem filed_updateGroup (id : Int) (changes : GroupChanges) :
    Leads KeepsFiled (updateGroup id changes) s := by
  refine (leads_require (stepwise_ask _)).bind fun group _ => ?_
  exact (leads_request (Fonoteca.filed_updateGroup _)).bind fun _ _ => leads_print _

theorem filed_joinGroup (person group : String) : Leads KeepsFiled (joinGroup person group) s := by
  refine (leads_require (stepwise_ask _)).bind fun personId _ => ?_
  refine (leads_require (stepwise_ask _)).bind fun groupId _ => ?_
  exact (leads_request (filed_join _ _)).bind fun _ _ => leads_print _

theorem filed_scanFolder (disk : Disk Content) (root : Path) (extension : String) :
    Leads KeepsFiled (scanFolder disk root extension) s := by
  have hscan := composes_stepwise.scanFiles filed_ingest disk.tagReader none
    (disk.discover root extension)
  refine (leads_print _).bind fun _ _ => (leads_inStore hscan).bind fun _ _ => ?_
  refine (leads_printAll _).bind fun _ _ => ?_
  split
  · exact leads_print _
  · exact leads_throw _

/-- **A track that is changed stays filed**: what is written back has the path that was read. -/
theorem filed_editTrack (id : Int) (changes : TrackChanges) :
    Leads KeepsFiled (editTrack id changes) s := by
  refine .bindRequire fun track hread => ?_
  split
  · exact leads_print _
  · have hpath : Sound s.store.tables → ∀ r ∈ s.store.tables.tracks,
        r.id = (changes.apply track).id → r.path = (changes.apply track).path := by
      intro hsound r hr hid
      obtain ⟨hfound, hpaths⟩ := hsound.of_readTrack (Store.classify_eq_ok_iff.1 hread)
      rw [TrackChanges.path_apply]
      exact hpaths r hr (by rw [hid, TrackChanges.id_apply, hfound])
    obtain ⟨u, hu, hs⟩ := filed_updateTrack hpath
    exact (leads_request_of (.single hu) hs).bind fun _ _ => leads_print _

end Action

/-- **Every command keeps the tracks filed.** -/
theorem filed_action (c : LibraryCommand) (s : Stage) (disk : Disk Content) (plan : Plan)
    (folder : Path) (ending : String) : Leads KeepsFiled (c.action disk plan folder ending) s := by
  by_cases hquery : c.isQuery = true
  · exact leads_of_isQuery hquery
  cases c with
  | scan root extension => exact Action.filed_scanFolder _ _ _
  | edit id changes => exact Action.filed_editTrack id changes
  | classify name kind => exact Action.filed_classify name kind
  | addPerson person => exact Action.filed_addPerson person
  | updatePerson id changes => exact Action.filed_updatePerson id changes
  | addGroup group => exact Action.filed_addGroup group
  | updateGroup id changes => exact Action.filed_updateGroup id changes
  | join person group => exact Action.filed_joinGroup person group
  | _ => exact absurd rfl hquery

theorem maintains_filed (c : LibraryCommand) {t : Tables} (h : Sound t ∧ Filed t) :
    c.Maintains (fun t => Sound t ∧ Filed t) t := by
  rintro disk plan folder ending store rfl
  obtain ⟨u, hu, hs⟩ := filed_action c { store } disk plan folder ending
  rw [show ((c.action disk plan folder ending).run { store }).2.store = { store with tables := u }
    from hs]
  exact KeepsFiled.of_reflTransGen hu h

/-! ## Libraries in use -/

section

variable {P : Tables → Prop} {d : Disk Content} {l : Library}

/-- The tables of a library in use have a property, and so have all those on its disk. -/
structure Library.Holds (P : Tables → Prop) (l : Library) : Prop where
  store : P l.store.tables
  disk : l.disk.Libraries P

theorem Disk.Libraries.openLibrary (hempty : P {}) (h : d.Libraries P) {address : String}
    (hl : d.openLibrary address = .ok l) : l.Holds P := by
  obtain ⟨hdisk, hstore⟩ := h.openDatabase hempty address
  rw [Disk.openLibrary] at hl
  split at hl
  · next store place disk hopen =>
    cases hl
    rw [hopen] at hdisk hstore
    exact ⟨hstore store place rfl, hdisk⟩
  · cases hl

namespace Library.Holds

theorem close (h : l.Holds P) : l.close.Holds P :=
  ⟨h.store, h.disk.settle h.store l.place⟩

theorem reopen (hempty : P {}) (h : l.Holds P) : l.reopen.2.Holds P := by
  obtain ⟨hdisk, hstore⟩ := (h.disk.settle h.store l.place).openDatabase hempty l.address
  rw [Library.reopen]
  split
  · next store place disk hopen =>
    rw [hopen] at hdisk hstore
    exact ⟨hstore store place rfl, hdisk⟩
  · next hopen =>
    rw [hopen] at hdisk
    exact ⟨h.store, hdisk⟩

/-- A request keeps a property of all libraries if it does on the tables in use. -/
theorem answer (hempty : P {}) (h : l.Holds P) {request : Request}
    (hkeep : request ≠ .close → request ≠ .reopen → P (request.run.run l.store).2.tables) :
    ((Library.answer request).run l).2.Holds P := by
  by_cases hclose : request = .close
  · rw [hclose]
    exact h.close
  by_cases hreopen : request = .reopen
  · rw [hreopen]
    exact h.reopen hempty
  have hP := hkeep hclose hreopen
  rw [answer_of_ne hclose hreopen]
  exact ⟨hP, h.disk.afterRequest hP l.place⟩

/-- So does a history of requests. -/
theorem answerAll (hempty : P {}) (h : l.Holds P) {requests : List Request}
    (hkeep : ∀ request ∈ requests, request ≠ .close → request ≠ .reopen →
      ∀ s : Store, P s.tables → P (request.run.run s).2.tables) :
    ((Library.answerAll requests).run l).2.Holds P := by
  induction requests generalizing l with
  | nil => exact h
  | cons request requests ih =>
    rw [answerAll_cons]
    have hfirst := h.answer hempty fun hclose hreopen =>
      hkeep request (.head _) hclose hreopen l.store h.store
    exact ih hfirst fun later hlater => hkeep later (.tail _ hlater)

end Library.Holds

end

/-- A request in good order keeps the tracks filed. -/
theorem filed_run {request : Request} (h : request.isOrderly = true) (hclose : request ≠ .close)
    (hreopen : request ≠ .reopen) {s : Store} (hs : Sound s.tables ∧ Filed s.tables) :
    Sound (request.run.run s).2.tables ∧ Filed (request.run.run s).2.tables := by
  obtain ⟨u, hu, -, hrun⟩ := stepwise_filed h hclose hreopen s
  rw [show (request.run.run s).2 = { s with tables := u } from hrun]
  exact KeepsFiled.of_reflTransGen hu hs

/-! ## All libraries -/

namespace Disk

variable {d : Disk Content}

/-- The disks that come about from one without a library by commands, and by opening libraries for
requests in good order and closing them again.  In between, other files may come and go, and files
with libraries may be moved, copied and deleted. -/
inductive Tended : Disk Content → Prop
  | new {d : Disk Content} (hnew : d.Libraries fun _ => False) : Tended d
  | run {d : Disk Content} (h : Tended d) (e : Environment) (i : Invocation) :
      Tended (i.run e d).2
  | used {d : Disk Content} {l : Library} (h : Tended d) {address : String}
      (hl : d.openLibrary address = .ok l) (requests : List Request)
      (horderly : ∀ request ∈ requests, request.isOrderly = true) :
      Tended ((Library.answerAll requests).run l).2.close.disk
  | changed {d d' : Disk Content} (h : Tended d)
      (hfiles : ∀ P : Tables → Prop, d.Libraries P → d'.Libraries P) : Tended d'

theorem Tended.libraries (h : d.Tended) : d.Libraries fun t => Sound t ∧ Filed t := by
  have hempty : Sound {} ∧ Filed {} := ⟨.empty, Tables.filed_empty⟩
  induction h with
  | new hnew => exact hnew.imp fun _ => False.elim
  | run _ e i ih => exact ih.run hempty fun c t _ => maintains_filed c
  | used _ hl requests horderly ih =>
    have hopened := ih.openLibrary hempty hl
    have hanswered := hopened.answerAll hempty fun request hrequest hclose hreopen s =>
      filed_run (horderly request hrequest) hclose hreopen
    exact hanswered.close.disk
  | changed _ hfiles ih => exact hfiles _ ih

/-- A library that is opened on such a disk has its tracks filed as long as it is asked in good
order. -/
theorem Tended.answerAll (h : d.Tended) {address : String} {l : Library}
    (hl : d.openLibrary address = .ok l) {requests : List Request}
    (horderly : ∀ request ∈ requests, request.isOrderly = true) :
    ((Library.answerAll requests).run l).2.Holds fun t => Sound t ∧ Filed t := by
  have hempty : Sound {} ∧ Filed {} := ⟨.empty, Tables.filed_empty⟩
  have hopened := h.libraries.openLibrary hempty hl
  exact hopened.answerAll hempty fun request hrequest hclose hreopen s =>
    filed_run (horderly request hrequest) hclose hreopen

/-- **Every track is on an album of its folder, and every performer's name is trimmed**, in all
libraries that commands have made and in all that tracks were put into by ingesting them, whether
they are in their files or in use, and whatever was asked of them and failed. -/
theorem Tended.filed (h : d.Tended) :
    (∀ place tables logged, d.root.lookup place = some (.file (.database tables logged)) →
      (∀ r ∈ tables.tracks, ∃ a, tables.album? r.album = some a ∧
        a.directory = Track.albumDir { path := r.path }) ∧
      ∀ p ∈ tables.performers, Text.trim p.name = p.name) ∧
    ∀ (address : String) (l : Library) (requests : List Request), d.openLibrary address = .ok l →
      (∀ request ∈ requests, request.isOrderly = true) →
      ∀ tables, ((Library.answerAll requests).run l).2.store.tables = tables →
        (∀ r ∈ tables.tracks, ∃ a, tables.album? r.album = some a ∧
          a.directory = Track.albumDir { path := r.path }) ∧
        ∀ p ∈ tables.performers, Text.trim p.name = p.name := by
  constructor
  · intro place tables logged hfile
    have hfiled := (h.libraries.of_lookup hfile).2
    exact ⟨hfiled.folders, hfiled.names⟩
  · rintro address l requests hl horderly tables rfl
    have hfiled := (h.answerAll hl horderly).store.2
    exact ⟨hfiled.folders, hfiled.names⟩

/-- A track by an artist with blanks around the name is put in, and then it is changed to another
artist on another album. -/
theorem filed_oneFile :
    ∃ d : Disk Content, d.Tended ∧
      ∃ tables, d.root.lookup onePlace = some (.file (.database tables false)) ∧
        tables.tracks.map (fun r => (r.performer, r.album, r.path)) = [(2, 2, "music/a.mp3")] ∧
        tables.albums.map (·.directory) = ["music", "music"] ∧
        (∀ r ∈ tables.tracks, ∃ a, tables.album? r.album = some a ∧
          a.directory = Track.albumDir { path := r.path }) ∧
        ∀ p ∈ tables.performers, Text.trim p.name = p.name := by
  let request : Request := .populate [{ artist := " Ann ", path := "music/a.mp3" }] none
  let command : LibraryCommand := .edit 1 { artist := some "Bo", album := some " Blue" }
  let populated : Tables := {
    performers := [⟨1, .unknown, "Ann"⟩]
    albums := [⟨1, "music", unknown, 2018⟩]
    tracks := [⟨1, 1, 1, "music/a.mp3", unknown, 0, 2018, unknown⟩] }
  let edited : Tables := {
    performers := [⟨1, .unknown, "Ann"⟩, ⟨2, .unknown, "Bo"⟩]
    albums := [⟨1, "music", unknown, 2018⟩, ⟨2, "music", "Blue", 2018⟩]
    tracks := [⟨1, 2, 2, "music/a.mp3", unknown, 0, 2018, unknown⟩] }
  have hblank : (oneFile (.bytes [])).Tended := .new ⟨⟨trivial, trivial⟩, trivial⟩
  have hl : (oneFile (.bytes [])).openLibrary (Database.address (some onePath)) =
      .ok ⟨Database.address (some onePath), {}, .file onePlace false,
        oneFile (.database {} false)⟩ := by
    rw [Disk.openLibrary, openDatabase_oneFile (.inl ⟨rfl, rfl⟩)]
  have hused : (((oneFile (.database {} false)).afterRequest (.file onePlace false) {}
      (request.run.run {}).2).settle (.file onePlace false) (request.run.run {}).2).Tended :=
    hblank.used hl [request] (by simp [request, Request.isOrderly])
  have hstore : (request.run.run {}).2 = { tables := populated } := by decide +kernel
  rw [hstore, show Disk.settle _ _ _ = oneFile (.database populated false) from rfl] at hused
  have hchanged := hused.run { home := ⟨[]⟩ } (oneFileCommand command)
  have haction : ∀ disk plan folder ending, ((command.action disk plan folder ending).run
      { store := { tables := populated } }).2.store = { tables := edited } := by
    intro _ _ _ _
    change ((Action.editTrack 1 { artist := some "Bo", album := some " Blue" }).run _).2.store = _
    decide +kernel
  rw [run_oneFile (.inr rfl) (fun _ _ => rfl) haction] at hchanged
  obtain ⟨hfiled, -⟩ := hchanged.filed
  exact ⟨_, hchanged, edited, rfl, rfl, rfl, hfiled onePlace edited false rfl⟩

end Disk
end Fonoteca
