import Fonoteca.Proofs.CommandLine.Folders
import Fonoteca.Proofs.Store.Rewriting

/-!
# What editing a track changes

An edit reads a track, makes the changes that it is asked for, and writes the track back.  The store
then resolves the artist and the album anew, even where neither is to change, and finds them again
only because all names are trimmed and all albums lie in the folders of their tracks.

* `Tables.Edited` says what has changed by an edit, and what has not.
* **`Tables.Sound.edited_restore`** : writing back a changed track is such an edit, if the tracks
  are filed.
* `Action.editTrack_eq_ok` : what an edit that goes well has done to the store.
* `Disk.libraryIn?` is the library that a command opens, with the place of its file.
* **`Disk.Tended.edited`** : an edit on the command line, seen in the file.
-/

set_option autoImplicit false

namespace Fonoteca

/-- What takes the place of a trimmed text is trimmed. -/
theorem trim_replaced {new : Option String} {old : String} (h : Text.trim old = old) :
    Text.trim (replaced new old) = replaced new old := by
  cases new with
  | none => exact h
  | some s => exact Text.trim_trim s

/-- A text that was replaced by another one was given one. -/
theorem exists_of_replaced_ne {new : Option String} {old : String} (h : replaced new old ≠ old) :
    ∃ s, new = some s ∧ Text.trim s ≠ old := by
  cases new with
  | none => exact absurd rfl h
  | some s => exact ⟨s, rfl, h⟩

namespace Tables

/-- Tables become others by an edit of a track.  What is given for a field is in its place, trimmed
if it is a text, and all else that is known of the track is as before.  Only another artist brings
it to another performer, and only another name of its album to another album.  The rows of the other
tracks are as they were and read so, and an edit that asks for nothing changes nothing. -/
structure Edited (t u : Tables) (id : Int) (changes : TrackChanges) : Prop where
  track : ∃ old r q, t.readTrack id = .ok (some old) ∧
    u.readTrack id = .ok (some { old with
      title := replaced changes.title old.title
      artist := replaced changes.artist old.artist
      album := replaced changes.album old.album
      genre := replaced changes.genre old.genre
      number := changes.number.getD old.number
      year := changes.year.getD old.year }) ∧
    t.track? id = some r ∧ u.track? id = some q ∧
    (q.performer ≠ r.performer → ∃ s, changes.artist = some s ∧ Text.trim s ≠ old.artist) ∧
    (q.album ≠ r.album → ∃ s, changes.album = some s ∧ Text.trim s ≠ old.album)
  trackIds : u.trackIds = t.trackIds
  others : ∀ other, other ≠ id →
    u.track? other = t.track? other ∧ u.readTrack other = t.readTrack other
  nothing : changes = {} → u = t

namespace Sound

variable {t : Tables} {id : Int} {old : Track}

/-- An edit that asks for nothing. -/
theorem edited_refl (h : Sound t) (hold : t.readTrack id = .ok (some old)) :
    Edited t t id {} where
  track := by
    obtain ⟨r, hr⟩ := Option.isSome_iff_exists.1 (h.track?_of_readTrack hold)
    exact ⟨old, r, r, hold, hold, hr, hr, fun hne => absurd rfl hne, fun hne => absurd rfl hne⟩
  trackIds := rfl
  others _ _ := ⟨rfl, rfl⟩
  nothing _ := rfl

/-- A track that is changed has the number under which it was read. -/
theorem id_apply (h : Sound t) (hold : t.readTrack id = .ok (some old)) (changes : TrackChanges) :
    (changes.apply old).id = id := by
  rw [TrackChanges.id_apply, (h.of_readTrack hold).1]

/-- **Writing back a changed track is an edit**, where the tracks are filed. -/
theorem edited_restore (h : Sound t) (hfiled : Filed t) (hold : t.readTrack id = .ok (some old))
    {changes : TrackChanges} (hchanges : changes ≠ {}) :
    Edited t (t.restore (changes.apply old)) id changes := by
  have hid := h.id_apply hold changes
  have hsound := h.restore (changes.apply old)
  have hold' : t.readTrack (changes.apply old).id = .ok (some old) := hid ▸ hold
  have hrewritten := h.rewritten_of_readTrack hold'
  obtain ⟨r, p, a, hr, hp, ha, hpname, haname, hpath⟩ := h.exists_rows_of_readTrack hold
  obtain ⟨hpmem, -⟩ := h.performer?_eq_some_iff.1 hp
  have hartist : Text.trim (changes.apply old).artist = (changes.apply old).artist := by
    rw [TrackChanges.apply_eq]
    exact trim_replaced (hpname ▸ hfiled.names p hpmem)
  have hfolder : a.directory = (changes.apply old).albumDir := by
    obtain ⟨b, hb, hfolder⟩ := hfiled.folders r (h.track?_eq_some_iff.1 hr).1
    rw [ha, Option.some.injEq] at hb
    rw [hb, hfolder, (changes.apply old).albumDir_eq, TrackChanges.path_apply, hpath]
  have hself : (t.restore (changes.apply old)).readTrack (changes.apply old).id =
      .ok (some (changes.apply old)) := by
    have hself := hrewritten.readTrack_self hsound
    rwa [hartist, ← changes.path_apply old] at hself
  have hread : (t.restore (changes.apply old)).readTrack id = .ok (some (changes.apply old)) :=
    hid ▸ hself
  obtain ⟨q, hq⟩ := Option.isSome_iff_exists.1 (hsound.track?_of_readTrack hread)
  refine ⟨⟨old, r, q, hold, ?_, hr, hq, fun hne => ?_, fun hne => ?_⟩, hrewritten.trackIds,
    fun other hother => ?_, fun hnothing => absurd hnothing hchanges⟩
  · rw [hread, TrackChanges.apply_eq]
  · refine exists_of_replaced_ne fun hsame => hne ?_
    refine hrewritten.performer_eq ?_ (hid.symm ▸ hq)
    rw [hp, hartist, TrackChanges.apply_eq, Option.map_some, hpname, hsame]
  · refine exists_of_replaced_ne fun hsame => hne ?_
    refine hrewritten.album_eq ha hfolder ?_ (hid.symm ▸ hq)
    rw [TrackChanges.apply_eq, haname, hsame]
  · rw [← hid] at hother
    exact ⟨hrewritten.others other hother, hrewritten.readTrack_of_ne h hsound hother⟩

end Sound
end Tables

/-! ## The action -/

namespace ActionM

variable {α β : Type} {s s' : Stage}

/-- An action of two parts that goes well does so in both. -/
theorem bind_eq_ok {act : ActionM α} {next : α → ActionM β} {b : β}
    (h : (act >>= next).run.run s = (.ok b, s')) :
    ∃ a s₁, act.run.run s = (.ok a, s₁) ∧ (next a).run.run s₁ = (.ok b, s') := by
  change ExceptT.bindCont next (act.run.run s).1 (act.run.run s).2 = _ at h
  rcases hact : act.run.run s with ⟨e | a, s₁⟩
  · rw [hact] at h
    cases h
  · rw [hact] at h
    exact ⟨a, s₁, rfl, h⟩

/-- A request that goes well leaves the stage with the store that it leaves. -/
theorem request_eq_ok {request : StoreM α} {a : α}
    (h : (ActionM.request request).run.run s = (.ok a, s')) :
    request.run.run s.store = (.ok a, s'.store) := by
  rw [run_request] at h
  obtain ⟨hresult, rfl⟩ := Prod.mk.inj h
  rcases hrun : request.run.run s.store with ⟨e | b, store⟩
  · rw [hrun] at hresult
    cases hresult
  · rw [hrun] at hresult
    cases hresult
    rfl

/-- What has to be there has been read, and nothing has changed. -/
theorem require_ask_eq_ok {what : String} {read : Tables → Except StoreError (Option α)} {a : α}
    (h : (require what (Store.ask read)).run.run s = (.ok a, s')) :
    read s.store.tables = .ok (some a) ∧ s' = s := by
  obtain ⟨found, s₁, hask, hfound⟩ := bind_eq_ok h
  obtain ⟨hread, hsame⟩ := run_request_ask (congrArg Prod.fst hask)
  rw [hask] at hsame
  obtain rfl := hsame
  cases found with
  | none => cases hfound
  | some b =>
    cases hfound
    exact ⟨hread, rfl⟩

end ActionM

open ActionM
open Tables (Edited Filed Sound)

namespace Action

variable {s s' : Stage} {id : Int} {changes : TrackChanges}

/-- **What an edit that goes well has done** to an open store whose tracks are filed. -/
theorem editTrack_eq_ok (hsound : Sound s.store.tables) (hfiled : Filed s.store.tables)
    (hopen : s.store.isOpen = true)
    (h : (editTrack id changes).run.run s = (.ok (), s')) :
    ∃ u, Edited s.store.tables u id changes ∧ s'.store = { s.store with tables := u } ∧
      (s.store.readOnly = true → u = s.store.tables) := by
  obtain ⟨old, s₁, hrequire, hrest⟩ := ActionM.bind_eq_ok h
  obtain ⟨hread, rfl⟩ := require_ask_eq_ok hrequire
  have hold := Store.classify_eq_ok_iff.1 hread
  split at hrest
  · next hempty =>
    obtain rfl := changes.isEmpty_iff.1 hempty
    cases hrest
    exact ⟨_, hsound.edited_refl hold, rfl, fun _ => rfl⟩
  · next hchanges =>
    obtain ⟨_, s₂, hupdate, hprint⟩ := ActionM.bind_eq_ok hrest
    have hold' := hold
    rw [← hsound.id_apply hold changes] at hold'
    have hrun := Store.run_updateTrack hsound hopen hold'
    have hstore := hrun.symm.trans (request_eq_ok hupdate)
    have hsame : s'.store = s₂.store := by
      cases hprint
      rfl
    split at hstore
    · cases hstore
    · next hwrite =>
      refine ⟨_, hsound.edited_restore hfiled hold (mt changes.isEmpty_iff.2 hchanges), ?_,
        fun hreadOnly => absurd hreadOnly hwrite⟩
      rw [hsame]
      exact (congrArg Prod.snd hstore).symm

/-- An edit that asks for nothing leaves the store as it is, whether it goes well or not. -/
theorem store_editTrack_nothing (id : Int) (s : Stage) :
    ((editTrack id {}).run.run s).2.store = s.store := by
  have hleads : Leads (fun _ _ => False) (editTrack id {}) s :=
    .bindRequire fun _ _ => leads_print _
  obtain ⟨u, hu, hs⟩ := hleads
  obtain rfl | ⟨_, hstep, -⟩ := hu.cases_head
  · exact hs
  · exact hstep.elim

end Action

/-! ## The library on the disk -/

namespace Disk

open Database

variable {d d' : Disk Content} {file : Path} {store : Store} {place : Place}

/-- The library that a command opens: its store, its place, and the disk while it is open. -/
def libraryIn? (d : Disk Content) (file : Path) : Option (Store × Place × Disk Content) :=
  match d.makeDatabaseFolder file with
  | (.error _, _) => none
  | (.ok (), d) =>
    match d.openDatabase (address (some file)) with
    | (.error _, _) => none
    | (.ok (store, place), d) => some (store, place, d)

/-- An action is run on the library that is opened. -/
theorem withLibrary_of_libraryIn? (h : d.libraryIn? file = some (store, place, d'))
    (act : Disk Content → ActionM Unit) :
    d.withLibrary file act =
      (.ofStage ((act d').run { store }).1 ((act d').run { store }).2,
        d'.keepDatabase place ((act d').run { store }).2.store) := by
  rw [libraryIn?] at h
  rw [withLibrary]
  rcases hfolder : d.makeDatabaseFolder file with ⟨_ | ⟨⟩, d₁⟩
  · rw [hfolder] at h
    cases h
  rw [hfolder] at h
  dsimp only at h ⊢
  rcases hopen : d₁.openDatabase (address (some file)) with ⟨_ | ⟨_, _⟩, d₂⟩
  · rw [hopen] at h
    cases h
  rw [hopen] at h
  cases h
  rfl

/-- Nothing is run if none is opened. -/
theorem failure_of_libraryIn? (h : d.libraryIn? file = none) (act : Disk Content → ActionM Unit) :
    (d.withLibrary file act).1.failure.isSome := by
  rw [libraryIn?] at h
  rw [withLibrary]
  rcases hfolder : d.makeDatabaseFolder file with ⟨_ | ⟨⟩, d₁⟩
  · rfl
  rw [hfolder] at h
  dsimp only at h ⊢
  rcases hopen : d₁.openDatabase (address (some file)) with ⟨_ | ⟨_, _⟩, d₂⟩
  · rfl
  rw [hopen] at h
  cases h

/-- A library that is opened has the tables in its file, or empty ones if it is kept in memory. -/
theorem of_libraryIn? (h : d.libraryIn? file = some (store, place, d')) :
    store.isOpen = true ∧ (place = .memory → store.tables = {}) ∧
      ∀ names logged, place = .file names logged →
        d'.root.lookup names = some (.file (.database store.tables logged)) := by
  rw [libraryIn?] at h
  split at h
  · cases h
  split at h
  · cases h
  next hopen =>
  cases h
  obtain ⟨a, o, c, d₁, d₂, -, -, -, -, hsetUp⟩ := openDatabase_eq_ok hopen
  match place with
  | .memory =>
    obtain ⟨-, rfl⟩ := setUp_memory_eq_ok hsetUp
    exact ⟨rfl, fun _ => rfl, by simp⟩
  | .file names logged =>
    obtain ⟨-, hstore, -, hfile⟩ := setUp_eq_ok hsetUp
    refine ⟨by rw [hstore], by simp, ?_⟩
    rintro _ _ ⟨⟩
    exact hfile

/-- The tables of a library are in its file when it is not in use any more. -/
theorem lookup_keepDatabase {names : List Bytes} {logged : Bool} {u : Tables}
    (hd : d.root.lookup names = some (.file (.database store.tables logged)))
    (hread : store.readOnly = true → u = store.tables) :
    (d.keepDatabase (.file names logged) { store with tables := u }).root.lookup names =
      some (.file (.database u logged)) := by
  rw [keepDatabase]
  split_ifs with hreadOnly
  · rw [hread hreadOnly]
    exact hd
  · have hnames : names ≠ [] := by
      rintro rfl
      cases hd
    have hindex := Entries.lookup_eraseAt_of_not_below
      (not_below_beside hnames (.head _ : logIndex ∈ companions true)) hd
    have hlog := Entries.lookup_eraseAt_of_not_below
      (not_below_beside hnames (.tail _ (.head _) : log ∈ companions true)) hindex
    exact Entries.lookup_putAt_self hlog _

theorem Libraries.libraryIn? {P : Tables → Prop} (hempty : P {}) (hd : d.Libraries P)
    (h : d.libraryIn? file = some (store, place, d')) : P store.tables := by
  have hfolder := hd.makeDatabaseFolder file
  rw [Disk.libraryIn?] at h
  split at h
  · cases h
  next heq =>
  rw [heq] at hfolder
  obtain ⟨-, hP⟩ := hfolder.openDatabase hempty (address (some file))
  split at h
  · cases h
  next heq =>
  cases h
  rw [heq] at hP
  exact hP store place rfl

end Disk

/-! ## The command -/

namespace Invocation

variable {i : Invocation} {id : Int} {changes : TrackChanges}

/-- The file in which a command looks for its library. -/
def libraryFile (i : Invocation) (e : Environment) (d : Disk Content) : Path :=
  i.database.getD ((d.loadSettings e.settingsPath).databasePath e)

/-- An edit is run on whatever library there is. -/
theorem run_edit (hi : i.command = .library (.edit id changes)) (e : Environment)
    (d : Disk Content) :
    i.run e d = d.withLibrary (i.libraryFile e d) fun _ => Action.editTrack id changes := by
  rw [run, hi]
  rfl

end Invocation

namespace Disk

/-- **An edit that goes well changes the fields that it is given, and nothing else**, in the library
of any disk that has been tended.  If no field is given, the library is the same afterwards, even
where there is no such track. -/
theorem Tended.edited {d : Disk Content} (h : d.Tended) (e : Environment) {i : Invocation}
    {id : Int} {changes : TrackChanges} (hi : i.command = .library (.edit id changes)) :
    ((i.run e d).1.failure = none →
      ∃ store names logged d' u,
        d.libraryIn? (i.libraryFile e d) = some (store, .file names logged, d') ∧
        d'.root.lookup names = some (.file (.database store.tables logged)) ∧
        (i.run e d).2.root.lookup names = some (.file (.database u logged)) ∧
        store.tables.Edited u id changes) ∧
    (changes = {} → ∀ store names logged d',
      d.libraryIn? (i.libraryFile e d) = some (store, .file names logged, d') →
      (i.run e d).2.root.lookup names = some (.file (.database store.tables logged))) := by
  rw [Invocation.run_edit hi]
  constructor
  · intro hdone
    rcases hlibrary : d.libraryIn? (i.libraryFile e d) with _ | ⟨store, place, d'⟩
    · have hfailed := failure_of_libraryIn? hlibrary fun _ => Action.editTrack id changes
      rw [hdone] at hfailed
      cases hfailed
    rw [withLibrary_of_libraryIn? hlibrary] at hdone ⊢
    rcases hrun : (Action.editTrack id changes).run { store } with ⟨failure | ⟨⟩, s'⟩
    · rw [hrun] at hdone
      cases hdone
    have hempty : Sound {} ∧ Filed {} := ⟨.empty, Tables.filed_empty⟩
    obtain ⟨hsound, hfiled⟩ := h.libraries.libraryIn? hempty hlibrary
    obtain ⟨hopen, hmemory, hfile⟩ := of_libraryIn? hlibrary
    obtain ⟨u, hedited, hstore, hread⟩ := Action.editTrack_eq_ok hsound hfiled hopen hrun
    match place with
    | .memory =>
      -- there is no track to edit in a new library
      obtain ⟨_, r, _, -, -, hr, -⟩ := hedited.track
      rw [hmemory rfl] at hr
      cases hr
    | .file names logged =>
      refine ⟨store, names, logged, d', u, rfl, hfile names logged rfl, ?_, hedited⟩
      dsimp only
      rw [hstore]
      exact lookup_keepDatabase (hfile names logged rfl) hread
  · rintro rfl store names logged d' hlibrary
    obtain ⟨-, -, hfile⟩ := of_libraryIn? hlibrary
    have hstore := Action.store_editTrack_nothing id { store }
    rw [withLibrary_of_libraryIn? hlibrary]
    dsimp only
    rw [show ((Action.editTrack id {}).run { store }).2.store = store from hstore]
    exact lookup_keepDatabase (hfile names logged rfl) fun _ => rfl

/-! ### A library in one file -/

theorem libraryIn?_oneFile (tables : Tables) :
    (oneFile (.database tables false)).libraryIn? onePath =
      some ({ tables }, .file onePlace false, oneFile (.database tables false)) := by
  have hfolder : (oneFile (.database tables false)).makeDatabaseFolder onePath =
      (.ok (), oneFile (.database tables false)) := by
    cbv
  rw [libraryIn?, hfolder]
  dsimp only
  rw [openDatabase_oneFile (.inr rfl)]

theorem libraryFile_oneFile (c : LibraryCommand) (e : Environment) (d : Disk Content) :
    (oneFileCommand c).libraryFile e d = onePath :=
  rfl

/-- An empty file may become a library by a request in good order. -/
theorem tended_oneFile (request : Request) (horderly : request.isOrderly = true)
    (hclose : request ≠ .close) (hreopen : request ≠ .reopen) {tables : Tables}
    (hstore : (request.run.run {}).2 = { tables }) :
    (oneFile (.database tables false)).Tended := by
  have hblank : (oneFile (.bytes [])).Tended := .new ⟨⟨trivial, trivial⟩, trivial⟩
  have hl : (oneFile (.bytes [])).openLibrary (Database.address (some onePath)) =
      .ok ⟨Database.address (some onePath), {}, .file onePlace false,
        oneFile (.database {} false)⟩ := by
    rw [openLibrary, openDatabase_oneFile (.inl ⟨rfl, rfl⟩)]
  have hused := hblank.used hl [request] (by simpa using horderly)
  rw [Library.answerAll_cons, Library.answer_of_ne hclose hreopen, hstore] at hused
  exact hused

/-- A track is given a title with blanks around it and a year, and then it is given nothing. -/
theorem edited_oneFile :
    ∃ (d : Disk Content) (e : Environment) (retitle keep : Invocation), d.Tended ∧
      retitle.command = .library (.edit 1 { title := some " Beetlebum ", year := some 1997 }) ∧
      keep.command = .library (.edit 1 {}) ∧
      (retitle.run e d).1.failure = none ∧
      (∃ store names logged d' u,
        d.libraryIn? (retitle.libraryFile e d) = some (store, .file names logged, d') ∧
        d'.root.lookup names = some (.file (.database store.tables logged)) ∧
        (retitle.run e d).2.root.lookup names = some (.file (.database u logged)) ∧
        store.tables.Edited u 1 { title := some " Beetlebum ", year := some 1997 }) ∧
      ∃ store names logged d',
        d.libraryIn? (keep.libraryFile e d) = some (store, .file names logged, d') ∧
        (keep.run e d).2.root.lookup names = some (.file (.database store.tables logged)) := by
  let request : Request := .populate [{ artist := " Ann ", path := "music/a.mp3" }] none
  let populated : Tables := {
    performers := [⟨1, .unknown, "Ann"⟩]
    albums := [⟨1, "music", unknown, 2018⟩]
    tracks := [⟨1, 1, 1, "music/a.mp3", unknown, 0, 2018, unknown⟩] }
  let e : Environment := { home := ⟨[]⟩ }
  let retitle : Invocation :=
    oneFileCommand (.edit 1 { title := some " Beetlebum ", year := some 1997 })
  let keep : Invocation := oneFileCommand (.edit 1 {})
  have hstore : (request.run.run {}).2 = { tables := populated } := by decide +kernel
  have htended : (oneFile (.database populated false)).Tended :=
    tended_oneFile request rfl nofun nofun hstore
  have hlibrary := libraryIn?_oneFile populated
  have hdone : (retitle.run e (oneFile (.database populated false))).1.failure = none := by
    rw [Invocation.run_edit rfl, libraryFile_oneFile, withLibrary_of_libraryIn? hlibrary]
    decide +kernel
  obtain ⟨hedited, -⟩ := htended.edited e (i := retitle) rfl
  obtain ⟨-, hkept⟩ := htended.edited e (i := keep) rfl
  exact ⟨_, e, retitle, keep, htended, rfl, rfl, hdone, hedited hdone, _, _, _, _, hlibrary,
    hkept rfl _ _ _ _ hlibrary⟩

end Disk
end Fonoteca
