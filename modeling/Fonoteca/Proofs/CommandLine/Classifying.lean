import Fonoteca.Proofs.CommandLine.Files
import Fonoteca.Proofs.Store.People

/-!
# What classifying a performer changes

Who is classified as a person or as a group gets a record of that kind, unless one of that name is
there already.  Performers and records are linked by nothing but their names, so the command looks
twice: for the performer whose kind it writes, and for the record that it may have to add.

* `Tables.classified` are the tables after a performer has been classified as some kinds, one after
  the other.
* `Action.run_classify` runs the command in a store that may be written,
  `Action.run_classify_readOnly` in one that may only be read.
* `Disk.Classifications` are runs of the command for one name on the library of one file.
* **`Disk.Tended.classified`** : what comes of one run of the command, and of any number of them.
-/

set_option autoImplicit false

namespace Fonoteca

/-! ## The tables -/

namespace Tables

variable {t : Tables} {name : String} {kind : PerformerKind} {kinds : List PerformerKind}

/-- The tables after the performer of a name has been classified as some kinds, one after the
other: the last one is the performer's kind, and there are records of the name, which are empty
where they are new.  Nothing else is different. -/
def classified (t : Tables) (name : String) (kinds : List PerformerKind) : Tables :=
  { t with
    performers := t.performers.map fun p =>
      if p.name = name then { p with kind := kinds.getLast?.getD p.kind } else p
    persons :=
      if .person ∈ kinds ∧ t.personNamed? name = none then
        t.persons ++ [{ id := t.nextPerson, stageName := name }]
      else t.persons
    groups :=
      if .group ∈ kinds ∧ t.groupNamed? name = none then
        t.groups ++ [{ id := t.nextGroup, name }]
      else t.groups }

theorem classified_nil (t : Tables) (name : String) : t.classified name [] = t := by
  simp [classified]

theorem persons_classified (t : Tables) (name : String) (kinds : List PerformerKind) :
    (t.classified name kinds).persons =
      if .person ∈ kinds ∧ t.personNamed? name = none then
        t.persons ++ [{ id := t.nextPerson, stageName := name }]
      else t.persons :=
  rfl

theorem groups_classified (t : Tables) (name : String) (kinds : List PerformerKind) :
    (t.classified name kinds).groups =
      if .group ∈ kinds ∧ t.groupNamed? name = none then
        t.groups ++ [{ id := t.nextGroup, name }]
      else t.groups :=
  rfl

/-- Where a row of a name was added if it was wanted and missing, it is missing only if it was so
before and was not wanted. -/
theorem missing_added_iff {α : Type} {name : α → String} {rows : List α} {row : α} {n : String}
    {wanted missing : Prop} [Decidable (wanted ∧ missing)] (hrow : name row = n)
    (hmissing : missing ↔ ∀ r ∈ rows, name r ≠ n) :
    (∀ r ∈ if wanted ∧ missing then rows ++ [row] else rows, name r ≠ n) ↔ ¬wanted ∧ missing := by
  split
  · next hadded =>
    constructor
    · intro hall
      exact absurd hrow (hall row (by simp))
    · intro hnot
      exact absurd hadded.1 hnot.1
  · next hkept =>
    rw [← hmissing]
    exact ⟨fun h => ⟨fun hwanted => hkept ⟨hwanted, h⟩, h⟩, And.right⟩

theorem personNamed?_classified :
    (t.classified name kinds).personNamed? name = none ↔
      .person ∉ kinds ∧ t.personNamed? name = none := by
  rw [personNamed?_eq_none_iff, persons_classified]
  exact missing_added_iff rfl personNamed?_eq_none_iff

theorem groupNamed?_classified :
    (t.classified name kinds).groupNamed? name = none ↔
      .group ∉ kinds ∧ t.groupNamed? name = none := by
  rw [groupNamed?_eq_none_iff, groups_classified]
  exact missing_added_iff rfl groupNamed?_eq_none_iff

/-- **One more classification** of the same name. -/
theorem classified_concat (t : Tables) (name : String) (kinds : List PerformerKind)
    (kind : PerformerKind) :
    (t.classified name kinds).classified name [kind] = t.classified name (kinds ++ [kind]) := by
  have hperformers : ((t.classified name kinds).classified name [kind]).performers =
      (t.classified name (kinds ++ [kind])).performers := by
    simp only [classified, List.map_map]
    refine List.map_congr_left fun p _ => ?_
    by_cases hp : p.name = name <;> simp [hp]
  have hpersons : ((t.classified name kinds).classified name [kind]).persons =
      (t.classified name (kinds ++ [kind])).persons := by
    rw [persons_classified, persons_classified]
    simp only [personNamed?_classified]
    by_cases hperson : .person ∈ kinds <;> by_cases hnone : t.personNamed? name = none <;>
      simp [classified, nextPerson, hperson, hnone]
  have hgroups : ((t.classified name kinds).classified name [kind]).groups =
      (t.classified name (kinds ++ [kind])).groups := by
    rw [groups_classified, groups_classified]
    simp only [groupNamed?_classified]
    by_cases hgroup : .group ∈ kinds <;> by_cases hnone : t.groupNamed? name = none <;>
      simp [classified, nextGroup, hgroup, hnone]
  exact (Tables.mk.injEq ..).mpr ⟨hperformers, rfl, rfl, hpersons, hgroups, rfl⟩

/-- Classifying once more as the same kind changes nothing. -/
theorem classified_classified (t : Tables) (name : String) (kind : PerformerKind) :
    (t.classified name [kind]).classified name [kind] = t.classified name [kind] := by
  rw [classified_concat]
  simp [classified]

/-- The names of the performers stay. -/
theorem performerNamed?_classified (t : Tables) (name other : String)
    (kinds : List PerformerKind) :
    (t.classified name kinds).performerNamed? other = t.performerNamed? other := by
  have hnames : ∀ p : Performer,
      (if p.name = name then { p with kind := kinds.getLast?.getD p.kind } else p).name = p.name ∧
      (if p.name = name then { p with kind := kinds.getLast?.getD p.kind } else p).id = p.id := by
    intro p
    split <;> exact ⟨rfl, rfl⟩
  rw [performerNamed?, classified, List.find?_map, Option.map_map, performerNamed?]
  simp only [Function.comp_def, hnames]

/-- The record that a performer of some kind stands for is there afterwards. -/
def withRecord (t : Tables) (name : String) : PerformerKind → Tables
  | .person => if t.personNamed? name = none then (t.addPerson { stageName := name }).2 else t
  | .group => if t.groupNamed? name = none then (t.addGroup { name }).2 else t
  | .unknown => t

/-- Giving the performer of a name a kind, and then adding the record of that kind where it is
missing, is classifying the performer, because no two performers have one name. -/
theorem Sound.withRecord_setKind (h : Sound t) {id : Int} (hid : t.performerNamed? name = some id)
    (kind : PerformerKind) :
    (t.setKind id kind).withRecord name kind = t.classified name [kind] := by
  have hperformers : (t.setKind id kind).performers = (t.classified name [kind]).performers := by
    obtain ⟨p, hp, rfl⟩ := Option.map_eq_some_iff.1 hid
    have hname : p.name = name := by simpa using List.find?_some hp
    refine List.map_congr_left fun q hq => ?_
    have hsame : q.id = p.id ↔ q.name = name := by
      constructor
      · intro heq
        rw [List.inj_on_of_nodup_map h.performerIds.nodup hq (List.mem_of_find?_eq_some hp) heq, hname]
      · intro heq
        rw [List.inj_on_of_nodup_map h.performerNames hq (List.mem_of_find?_eq_some hp)
          (heq.trans hname.symm)]
    simp [hsame]
  have hkept : t.setKind id kind = { t with performers := (t.classified name [kind]).performers } :=
    congrArg (fun performers => { t with performers }) hperformers
  rw [hkept]
  cases kind with
  | person =>
    rw [withRecord]
    change (if t.personNamed? name = none then _ else _) = _
    split
    · next hnone => simp [classified, Tables.addPerson, nextPerson, hnone]
    · next hsome => simp [classified, hsome]
  | group =>
    rw [withRecord]
    change (if t.groupNamed? name = none then _ else _) = _
    split
    · next hnone => simp [classified, Tables.addGroup, nextGroup, hnone]
    · next hsome => simp [classified, hsome]
  | unknown => simp [classified, withRecord]

end Tables

/-! ## The action -/

namespace ActionM

variable {α β : Type} {s s₁ : Stage}

/-- An action goes on from the stage that its first part leaves. -/
theorem run_bind_ok {act : ActionM α} {a : α} (h : act.run.run s = (.ok a, s₁))
    (next : α → ActionM β) : (act >>= next).run.run s = (next a).run.run s₁ := by
  change ExceptT.bindCont next (act.run.run s).1 (act.run.run s).2 = _
  rw [h]
  rfl

/-- An action that fails in its first part does not go on. -/
theorem run_bind_error {act : ActionM α} {e : CommandFailure}
    (h : act.run.run s = (.error e, s₁)) (next : α → ActionM β) :
    (act >>= next).run.run s = (.error e, s₁) := by
  change ExceptT.bindCont next (act.run.run s).1 (act.run.run s).2 = _
  rw [h]
  rfl

section

variable (hopen : s.store.isOpen = true)

include hopen

theorem run_ask {read : Tables → Except StoreError α} {a : α}
    (hread : read s.store.tables = .ok a) :
    (request (Store.ask read)).run.run s = (.ok a, s) := by
  rw [run_request, show (Store.ask read).run.run s.store = (read s.store.tables, s.store) from
    Store.run_ask hopen read, hread]
  rfl

/-- What is required is found. -/
theorem run_require_some {what : String} {read : Tables → Except StoreError (Option α)} {a : α}
    (hread : read s.store.tables = .ok (some a)) :
    (require what (Store.ask read)).run.run s = (.ok a, s) := by
  rw [require, run_bind_ok (run_ask hopen hread)]
  rfl

/-- What is required is not there. -/
theorem run_require_none {what : String} {read : Tables → Except StoreError (Option α)}
    (hread : read s.store.tables = .ok none) :
    (require what (Store.ask read)).run.run s = (.error (.notFound what), s) := by
  rw [require, run_bind_ok (run_ask hopen hread)]
  rfl

theorem run_change (hwrite : s.store.readOnly = false)
    {update : Tables → Except StoreError (α × Tables)} {a : α} {u : Tables}
    (hu : update s.store.tables = .ok (a, u)) :
    (request (Store.change update)).run.run s =
      (.ok a, { s with store := { s.store with tables := u } }) := by
  rw [run_request, show (Store.change update).run.run s.store = _ from
    Store.run_change_ok hopen hwrite hu]
  rfl

theorem run_change_readOnly (hread : s.store.readOnly = true)
    (update : Tables → Except StoreError (α × Tables)) :
    (request (Store.change update)).run.run s = (.error (.store (.query .readOnly)), s) := by
  rw [run_request, show (Store.change update).run.run s.store = _ from
    Store.run_change_readOnly hopen hread update]
  rfl

end

end ActionM

namespace Action

open ActionM

variable {s : Stage} {name : String} {kind : PerformerKind} {id : Int}
  (hopen : s.store.isOpen = true)

include hopen

/-- The record of a performer is added if it is missing. -/
theorem run_ensureRecord (hwrite : s.store.readOnly = false) (name : String)
    (kind : PerformerKind) :
    ∃ s', (ensureRecord name kind).run.run s = (.ok (), s') ∧
      s'.store = { s.store with tables := s.store.tables.withRecord name kind } := by
  cases kind with
  | person =>
    have hasked : (request (Store.personNamed? name)).run.run s =
        (.ok (s.store.tables.personNamed? name), s) := run_ask hopen rfl
    rw [ensureRecord, run_bind_ok hasked, Tables.withRecord]
    by_cases hnone : s.store.tables.personNamed? name = none
    · rw [hnone, if_pos rfl, Option.isNone_none, if_pos rfl, newPerson, Store.addPerson,
        run_bind_ok (run_change hopen hwrite rfl)]
      exact ⟨_, rfl, rfl⟩
    · rw [if_neg hnone, if_neg (by simpa using hnone)]
      exact ⟨s, rfl, rfl⟩
  | group =>
    have hasked : (request (Store.groupNamed? name)).run.run s =
        (.ok (s.store.tables.groupNamed? name), s) := run_ask hopen rfl
    rw [ensureRecord, run_bind_ok hasked, Tables.withRecord]
    by_cases hnone : s.store.tables.groupNamed? name = none
    · rw [hnone, if_pos rfl, Option.isNone_none, if_pos rfl, newGroup, Store.addGroup,
        run_bind_ok (run_change hopen hwrite rfl)]
      exact ⟨_, rfl, rfl⟩
    · rw [if_neg hnone, if_neg (by simpa using hnone)]
      exact ⟨s, rfl, rfl⟩
  | unknown => exact ⟨s, rfl, rfl⟩

/-- Nobody can be classified who is not there. -/
theorem run_classify_missing (hnone : s.store.tables.performerNamed? name = none)
    (kind : PerformerKind) :
    (classify name kind).run.run s =
      (.error (.notFound ("performer " ++ Text.quoted name)), s) := by
  rw [classify, Store.performerNamed?]
  exact run_bind_error (run_require_none hopen (by rw [hnone])) _

/-- Nobody is classified in a store that may only be read. -/
theorem run_classify_readOnly (hread : s.store.readOnly = true)
    (hid : s.store.tables.performerNamed? name = some id) (kind : PerformerKind) :
    (classify name kind).run.run s = (.error (.store (.query .readOnly)), s) := by
  rw [classify, Store.performerNamed?, run_bind_ok (run_require_some hopen (by rw [hid]))]
  exact run_bind_error (run_change_readOnly hopen hread _) _

/-- **Who is there is classified.** -/
theorem run_classify (hsound : s.store.tables.Sound) (hwrite : s.store.readOnly = false)
    (hid : s.store.tables.performerNamed? name = some id) (kind : PerformerKind) :
    ∃ s', (classify name kind).run.run s = (.ok (), s') ∧
      s'.store = { s.store with tables := s.store.tables.classified name [kind] } := by
  rw [classify, Store.performerNamed?, run_bind_ok (run_require_some hopen (by rw [hid])),
    Store.setKind, run_bind_ok (run_change hopen hwrite rfl)]
  obtain ⟨s', hrun, hstore⟩ := run_ensureRecord (s := { s with
    store := { s.store with tables := s.store.tables.setKind id kind } }) hopen hwrite name kind
  rw [run_bind_ok hrun]
  refine ⟨_, rfl, ?_⟩
  change s'.store = _
  rw [hstore, ← hsound.withRecord_setKind hid kind]

end Action

/-! ## The command -/

/-- The command is run on whatever library there is. -/
theorem Invocation.run_classify {i : Invocation} {name : String} {kind : PerformerKind}
    (hi : i.command = .library (.classify name kind)) (e : Environment) (d : Disk Content) :
    i.run e d = d.withLibrary (i.libraryFile e d) fun _ => Action.classify name kind := by
  rw [run, hi]
  rfl

namespace Disk

open Database

variable {d d' : Disk Content} {e : Environment} {i : Invocation} {name : String}
  {kind : PerformerKind} {store : Store} {place : Place} {names : List Bytes} {logged : Bool}

/-- An action leaves in the file what it leaves in the store. -/
theorem hasTables_withLibrary {file : Path}
    (hlib : d.libraryIn? file = some (store, .file names logged, d'))
    {act : Disk Content → ActionM Unit} {u : Tables}
    (hstore : ((act d').run { store }).2.store = { store with tables := u })
    (hread : store.readOnly = true → u = store.tables) :
    (d.withLibrary file act).2.HasTables names u := by
  obtain ⟨-, -, hfile⟩ := of_libraryIn? hlib
  rw [withLibrary_of_libraryIn? hlib]
  dsimp only
  rw [hstore]
  exact ⟨logged, lookup_keepDatabase (hfile names logged rfl) hread⟩

section

variable (hi : i.command = .library (.classify name kind))
  (hlib : d.libraryIn? (i.libraryFile e d) = some (store, place, d'))

include hi hlib

/-- The command reports how its action ends, and leaves in the file what the action leaves in the
store. -/
theorem report_classify {result : Except CommandFailure Unit} {s : Stage} {u : Tables}
    (hrun : (Action.classify name kind).run.run { store } = (result, s))
    (hstore : s.store = { store with tables := u })
    (hread : store.readOnly = true → u = store.tables) :
    (i.run e d).1 = .ofStage result s ∧ ∀ names logged, place = .file names logged →
      (i.run e d).2.HasTables names u := by
  have hrun : (Action.classify name kind).run { store } = (result, s) := hrun
  rw [Invocation.run_classify hi]
  constructor
  · rw [withLibrary_of_libraryIn? hlib]
    dsimp only
    rw [hrun]
  · rintro names logged rfl
    exact hasTables_withLibrary hlib (hrun ▸ hstore) hread

/-- A command for a name that no performer has fails, and changes nothing. -/
theorem failure_classify_missing (hnone : store.tables.performerNamed? name = none) :
    (i.run e d).1.failure = some (.notFound ("performer " ++ Text.quoted name)) ∧
      ∀ names logged, place = .file names logged →
        (i.run e d).2.HasTables names store.tables := by
  obtain ⟨hopen, -, -⟩ := of_libraryIn? hlib
  obtain ⟨hreport, hkept⟩ := report_classify hi hlib
    (Action.run_classify_missing (s := { store }) hopen hnone kind) rfl fun _ => rfl
  exact ⟨by rw [hreport]; rfl, hkept⟩

/-- A command on a library that may only be read fails, and changes nothing. -/
theorem failure_classify_readOnly {id : Int} (hread : store.readOnly = true)
    (hid : store.tables.performerNamed? name = some id) :
    (i.run e d).1.failure = some (.store (.query .readOnly)) ∧
      ∀ names logged, place = .file names logged →
        (i.run e d).2.HasTables names store.tables := by
  obtain ⟨hopen, -, -⟩ := of_libraryIn? hlib
  obtain ⟨hreport, hkept⟩ := report_classify hi hlib
    (Action.run_classify_readOnly (s := { store }) hopen hread hid kind) rfl fun _ => rfl
  exact ⟨by rw [hreport]; rfl, hkept⟩

/-- **A command on a library that may be written** classifies whoever is there. -/
theorem hasTables_classify {id : Int} (hsound : store.tables.Sound)
    (hwrite : store.readOnly = false) (hid : store.tables.performerNamed? name = some id) :
    (i.run e d).1.failure = none ∧ ∀ names logged, place = .file names logged →
      (i.run e d).2.HasTables names (store.tables.classified name [kind]) := by
  obtain ⟨hopen, -, -⟩ := of_libraryIn? hlib
  obtain ⟨s', hrun, hstore⟩ :=
    Action.run_classify (s := { store }) hopen hsound hwrite hid kind
  obtain ⟨hreport, hkept⟩ := report_classify hi hlib hrun hstore fun hread => by
    rw [hwrite] at hread
    cases hread
  exact ⟨by rw [hreport]; rfl, hkept⟩

end

/-! ## Any number of runs -/

/-- Runs that classify the performer of one name, each on the library in the file at one place,
which it may write. -/
inductive Classifications (name : String) (names : List Bytes) :
    List PerformerKind → Disk Content → Disk Content → Prop
  | nil (d : Disk Content) : Classifications name names [] d d
  /-- One more run, from whatever folder and with whatever path that leads to the library. -/
  | concat {kinds : List PerformerKind} {d d₁ d₂ : Disk Content}
      (h : Classifications name names kinds d d₁) {e : Environment} {i : Invocation}
      {kind : PerformerKind} (hi : i.command = .library (.classify name kind)) {store : Store}
      {logged : Bool} (hlib : d₁.libraryIn? (i.libraryFile e d₁) =
        some (store, .file names logged, d₂))
      (hwrite : store.readOnly = false) :
      Classifications name names (kinds ++ [kind]) d (i.run e d₁).2

theorem Tended.classifications (h : d.Tended) {kinds : List PerformerKind}
    (hruns : Classifications name names kinds d d') : d'.Tended := by
  induction hruns with
  | nil => exact h
  | concat _ _ _ _ ih => exact (ih h).run _ _

theorem Tended.sound (h : d.Tended) {file : Path}
    (hlib : d.libraryIn? file = some (store, place, d')) : store.tables.Sound :=
  (h.libraries.libraryIn? ⟨.empty, Tables.filed_empty⟩ hlib).1

/-- **Any number of runs** leaves the kind of the last one, and a record of each kind. -/
theorem Tended.hasTables_classifications (h : d.Tended) {t : Tables} {id : Int}
    (hfile : d.HasTables names t) (hid : t.performerNamed? name = some id)
    {kinds : List PerformerKind} (hruns : Classifications name names kinds d d') :
    d'.HasTables names (t.classified name kinds) := by
  induction hruns with
  | nil =>
    rw [Tables.classified_nil]
    exact hfile
  | @concat kinds d d₁ _ hbefore _ _ kind hi store _ hlib hwrite ih =>
    have hsound := (h.classifications hbefore).sound hlib
    have htables := (ih h hfile).tables_eq_of_libraryIn? hlib
    have hthere : store.tables.performerNamed? name = some id := by
      rw [htables, Tables.performerNamed?_classified, hid]
    obtain ⟨-, hkept⟩ := hasTables_classify hi hlib hsound hwrite hthere
    rw [← Tables.classified_concat, ← htables]
    exact hkept _ _ rfl

/-- **Classifying a performer.**  Whatever library a command opens on a disk that has been tended, it
fails and changes nothing there if no performer has exactly the name, and also if the library may
only be read.  Otherwise it succeeds: that performer has the kind afterwards, a record of the name
is added if the kind has records and none of that name is there, and nothing else changes.  Run
again, from any folder, it changes nothing.  Any number of runs for one name leave the kind of the
last one, and add one person and one group at most. -/
theorem Tended.classified (h : d.Tended) (name : String) :
    (∀ (e : Environment) (i : Invocation) (kind : PerformerKind) (store : Store) (place : Place)
        (d' : Disk Content), i.command = .library (.classify name kind) →
        d.libraryIn? (i.libraryFile e d) = some (store, place, d') →
      ((∀ p ∈ store.tables.performers, p.name ≠ name) →
        (i.run e d).1.failure = some (.notFound ("performer " ++ Text.quoted name)) ∧
          ∀ names logged, place = .file names logged →
            (i.run e d).2.HasTables names store.tables) ∧
      ((∃ p ∈ store.tables.performers, p.name = name) → store.readOnly = true →
        (i.run e d).1.failure = some (.store (.query .readOnly)) ∧
          ∀ names logged, place = .file names logged →
            (i.run e d).2.HasTables names store.tables) ∧
      ((∃ p ∈ store.tables.performers, p.name = name) → store.readOnly = false →
        (i.run e d).1.failure = none ∧ ∃ names logged, place = .file names logged ∧
          (i.run e d).2.HasTables names (store.tables.classified name [kind]) ∧
          ∀ (e' : Environment) (i' : Invocation) (store' : Store) (logged' : Bool)
            (d'' : Disk Content), i'.command = i.command →
            (i.run e d).2.libraryIn? (i'.libraryFile e' (i.run e d).2) =
              some (store', .file names logged', d'') →
            (i'.run e' (i.run e d).2).2.HasTables names (store.tables.classified name [kind]))) ∧
    ∀ (names : List Bytes) (t : Tables) (kinds : List PerformerKind) (d' : Disk Content),
      d.HasTables names t → (∃ p ∈ t.performers, p.name = name) →
      Classifications name names kinds d d' →
      d'.HasTables names (t.classified name kinds) ∧
        (t.classified name kinds).persons.length ≤ t.persons.length + 1 ∧
        (t.classified name kinds).groups.length ≤ t.groups.length + 1 := by
  have hthere : ∀ {t : Tables}, (∃ p ∈ t.performers, p.name = name) →
      ∃ id, t.performerNamed? name = some id := by
    rintro t ⟨p, hp, hname⟩
    rw [← Option.isSome_iff_exists, Option.isSome_iff_ne_none]
    exact fun hnone => Tables.performerNamed?_eq_none_iff.1 hnone p hp hname
  refine ⟨fun e i kind store place d' hi hlib => ⟨fun hnone => ?_, fun hp hread => ?_,
    fun hp hwrite => ?_⟩, fun names t kinds d' hfile hp hruns => ⟨?_, ?_, ?_⟩⟩
  · exact failure_classify_missing hi hlib (Tables.performerNamed?_eq_none_iff.2 hnone)
  · obtain ⟨id, hid⟩ := hthere hp
    exact failure_classify_readOnly hi hlib hread hid
  · obtain ⟨id, hid⟩ := hthere hp
    obtain ⟨hdone, hkept⟩ := hasTables_classify hi hlib (h.sound hlib) hwrite hid
    match place with
    | .memory =>
      -- nobody is in a new library
      obtain ⟨-, hempty, -⟩ := of_libraryIn? hlib
      rw [hempty rfl] at hid
      cases hid
    | .file names logged =>
      have hfile := hkept names logged rfl
      refine ⟨hdone, names, logged, rfl, hfile, fun e' i' store' logged' d'' hi' hlib' => ?_⟩
      have hagain : i'.command = .library (.classify name kind) := hi'.trans hi
      have htables := hfile.tables_eq_of_libraryIn? hlib'
      have hid' : store'.tables.performerNamed? name = some id := by
        rw [htables, Tables.performerNamed?_classified, hid]
      rw [← htables]
      cases hread : store'.readOnly with
      | true =>
        obtain ⟨-, hsame⟩ := failure_classify_readOnly hagain hlib' hread hid'
        exact hsame _ _ rfl
      | false =>
        obtain ⟨-, hsame⟩ :=
          hasTables_classify hagain hlib' ((h.run e i).sound hlib') hread hid'
        have hclassified := hsame _ _ rfl
        rwa [htables, Tables.classified_classified, ← htables] at hclassified
  · obtain ⟨id, hid⟩ := hthere hp
    exact h.hasTables_classifications hfile hid hruns
  · rw [Tables.persons_classified]
    split <;> simp
  · rw [Tables.groups_classified]
    split <;> simp

/-! ### A library in one file -/

/-- A library with a performer whom a track has brought into it. -/
def annTables : Tables where
  performers := [⟨1, .unknown, "Ann"⟩]
  albums := [⟨1, "music", unknown, 2018⟩]
  tracks := [⟨1, 1, 1, "music/a.mp3", unknown, 0, 2018, unknown⟩]

theorem tended_annTables : (oneFile (.database annTables false)).Tended := by
  refine tended_oneFile (.populate [{ artist := " Ann ", path := "music/a.mp3" }] none) rfl nofun
    nofun ?_
  decide +kernel

/-- Ann is found to be a group. -/
theorem classified_ann :
    ∃ (d : Disk Content) (e : Environment) (i : Invocation), d.Tended ∧
      i.command = .library (.classify "Ann" .group) ∧ (i.run e d).1.failure = none ∧
      (i.run e d).2.HasTables onePlace { annTables with
        performers := [⟨1, .group, "Ann"⟩], groups := [{ id := 1, name := "Ann" }] } := by
  let e : Environment := { home := ⟨[]⟩ }
  let i : Invocation := oneFileCommand (.classify "Ann" .group)
  obtain ⟨hruns, -⟩ := tended_annTables.classified "Ann"
  obtain ⟨-, -, hclassified⟩ := hruns e i .group _ _ _ rfl (libraryIn?_oneFile annTables)
  obtain ⟨hdone, names, logged, hplace, hfile, -⟩ :=
    hclassified ⟨_, .head _, rfl⟩ rfl
  cases hplace
  exact ⟨_, e, i, tended_annTables, rfl, hdone, hfile⟩

/-- The path of that file, with the option to read it only. -/
def onlyRead : Path := ⟨"x?mode=ro".toUTF8.toList⟩

theorem parse?_onlyRead :
    Address.parse? (address (some onlyRead)) = .ok { name := "x", readOnly := true } := by
  have haddress : address (some onlyRead) = scheme ++ "x?mode=ro" := by decide +kernel
  rw [haddress, Address.parse?_append (by decide +kernel) (by decide +kernel)]
  decide +kernel

theorem opening_onlyRead : ({ name := "x", readOnly := true } : Address).opening false =
    .ok { path := onePath, access := .read } := by
  cbv

theorem libraryIn?_onlyRead (tables : Tables) :
    (oneFile (.database tables false)).libraryIn? onlyRead =
      some ({ tables, readOnly := true }, .file onePlace false,
        oneFile (.database tables false)) := by
  have hfolder : (oneFile (.database tables false)).makeDatabaseFolder onlyRead =
      (.ok (), oneFile (.database tables false)) := by
    have hbytes : onlyRead = ⟨[120, 63, 109, 111, 100, 101, 61, 114, 111]⟩ := by decide +kernel
    rw [hbytes]
    cbv
  have hthere : (oneFile (.database tables false)).isThere onePath = true := by
    rw [isThere, node, locate_oneFile]
    rfl
  have hplace : placeOf? (oneFile (.database tables false)) onePath = some onePlace := by cbv
  have hmemory : isInMemory { path := onePath, access := .read } = false := by decide +kernel
  have hconnect : (oneFile (.database tables false)).connect
      { path := onePath, access := .read } =
        .ok ({ file? := some onePlace, readOnly := true }, oneFile (.database tables false)) := by
    rw [Disk.connect, hplace, hmemory]
    rfl
  rw [libraryIn?, hfolder]
  dsimp only
  rw [Disk.openDatabase, parse?_onlyRead]
  dsimp only
  rw [ofString_onePath, hthere, Bool.or_true, if_pos rfl, opening_onlyRead]
  dsimp only [Except.bind]
  rw [hconnect]
  rfl

/-- **A library that is opened for reading only** has a performer who cannot be classified. -/
theorem classify_refused_onlyRead :
    ∃ (d : Disk Content) (e : Environment) (i : Invocation) (store : Store) (d' : Disk Content),
      d.Tended ∧ i.command = .library (.classify "Ann" .group) ∧
      d.libraryIn? (i.libraryFile e d) = some (store, .file onePlace false, d') ∧
      (∃ p ∈ store.tables.performers, p.name = "Ann") ∧
      (i.run e d).1.failure = some (.store (.query .readOnly)) ∧
      (i.run e d).2.HasTables onePlace store.tables := by
  let e : Environment := { home := ⟨[]⟩ }
  let i : Invocation := { database := some onlyRead, command := .library (.classify "Ann" .group) }
  have hlib := libraryIn?_onlyRead annTables
  have hid : annTables.performerNamed? "Ann" = some 1 := by decide +kernel
  obtain ⟨hfailure, hkept⟩ := failure_classify_readOnly (e := e) (i := i) rfl hlib rfl hid
  exact ⟨_, e, i, _, _, tended_annTables, rfl, hlib, ⟨_, .head _, rfl⟩, hfailure, hkept _ _ rfl⟩

end Disk
end Fonoteca
