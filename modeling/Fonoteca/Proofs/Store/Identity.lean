import Fonoteca.Proofs.Scan.Completion

/-!
# Names stand for rows, and for good

A name is resolved to the number of a row.  At two moments far apart two names are resolved to one
number if and only if they are one name: no two rows of a table have a name in common, no two have
their number in common, and what was found once is found ever after.  Performers go by the trimmed
name and albums by folder and name, whatever year is asked for.

* `Tables.Sound.performerNamed?_inj` and `Tables.Sound.albumNamed?_inj` say so of one moment.
* `Tables.Sound.album?_albumFor_eq` : the row that an album is resolved to, with the year that it
  was added with.
* **`Store.Reachable.resolution_stable`** says so of any two moments, with anything in between but
  the loss of a library that was in memory.
-/

set_option autoImplicit false

namespace Fonoteca
namespace Tables

namespace Sound

variable {t : Tables}

/-! ## At one moment -/

/-- Who is found by a name has this name. -/
theorem mem_names_of_named {name : String} {id : Int} (hid : t.performerNamed? name = some id) :
    (id, name) ∈ t.names := by
  obtain ⟨p, hp, rfl⟩ := Option.map_eq_some_iff.1 hid
  have hname : p.name = name := by simpa using List.find?_some hp
  exact mem_names_iff.2 ⟨p, List.mem_of_find?_eq_some hp, rfl, hname⟩

/-- The album that is found by its folder and name has these. -/
theorem album?_of_named (h : Sound t) {directory name : String} {id : Int}
    (hid : t.albumNamed? directory name = some id) :
    ∃ year, t.album? id = some ⟨id, directory, name, year⟩ := by
  obtain ⟨a, ha, rfl⟩ := Option.map_eq_some_iff.1 hid
  obtain ⟨rfl, rfl⟩ : a.directory = directory ∧ a.name = name := by simpa using List.find?_some ha
  exact ⟨a.year, h.album?_eq_some_iff.2 ⟨List.mem_of_find?_eq_some ha, rfl⟩⟩

/-- Two names are found to be of one number only if they are one name. -/
theorem performerNamed?_inj (h : Sound t) {name other : String} {id id' : Int}
    (hid : t.performerNamed? name = some id) (hid' : t.performerNamed? other = some id') :
    id' = id ↔ other = name := by
  constructor
  · rintro rfl
    obtain ⟨p, hp, hpid, rfl⟩ := mem_names_iff.1 (mem_names_of_named hid)
    obtain ⟨q, hq, hqid, rfl⟩ := mem_names_iff.1 (mem_names_of_named hid')
    rw [List.inj_on_of_nodup_map h.performerIds.nodup hq hp (hqid.trans hpid.symm)]
  · rintro rfl
    exact Option.some.inj (hid'.symm.trans hid)

@[inherit_doc performerNamed?_inj]
theorem albumNamed?_inj (h : Sound t) {directory directory' name name' : String} {id id' : Int}
    (hid : t.albumNamed? directory name = some id)
    (hid' : t.albumNamed? directory' name' = some id') :
    id' = id ↔ directory' = directory ∧ name' = name := by
  constructor
  · rintro rfl
    obtain ⟨year, ha⟩ := h.album?_of_named hid
    obtain ⟨year', ha'⟩ := h.album?_of_named hid'
    have hrow : (⟨id', directory', name', year'⟩ : AlbumRow) = ⟨id', directory, name, year⟩ :=
      Option.some.inj (ha'.symm.trans ha)
    exact ⟨congrArg AlbumRow.directory hrow, congrArg AlbumRow.name hrow⟩
  · rintro ⟨rfl, rfl⟩
    exact Option.some.inj (hid'.symm.trans hid)

/-! ## The year of an album -/

/-- **An album has the year that it was added with**: resolving it anew adds nothing, whatever the
year that is asked for. -/
theorem album?_albumFor_eq (h : Sound t) (directory name : String) (year : Int32) :
    ∃ y, (t.albumFor directory name year).2.album? (t.albumFor directory name year).1 =
        some ⟨(t.albumFor directory name year).1, directory, name, y⟩ ∧
      (t.albumNamed? directory name = none → y = year.toInt) ∧
      ∀ id, t.albumNamed? directory name = some id →
        t.album? id = some ⟨id, directory, name, y⟩ := by
  rw [albumFor]
  cases hid : t.albumNamed? directory name with
  | some id =>
    obtain ⟨y, ha⟩ := h.album?_of_named hid
    exact ⟨y, ha, by simp, by rintro _ ⟨⟩; exact ha⟩
  | none =>
    -- the new row is the last one, and no other row has its number
    have hrow : (⟨t.nextAlbum, directory, name, year.toInt⟩ : AlbumRow) ∈
        (t.pushAlbum directory name year.toInt).2.albums :=
      List.mem_append_right _ (List.mem_singleton_self _)
    exact ⟨year.toInt, (h.pushAlbum hid).album?_eq_some_iff.2 ⟨hrow, rfl⟩, fun _ => rfl, by simp⟩

end Sound
end Tables

namespace Store

variable {s s₁ s₂ : Store}

/-! ## At any two moments -/

/-- A request leaves the store as its answer does. -/
theorem run_answer_snd {α : Type} (request : StoreM α) (say : α → Answer) (s : Store) :
    ((request.answer say).run s).2 = (request.run s).2 := by
  change _ = (request.run.run s).2
  rw [StoreM.answer, StateT.run_bind]
  rcases request.run.run s with ⟨e | a, s₁⟩ <;> rfl

/-- What a request leaves comes later than what it found. -/
theorem later_of_run {α : Type} {request : StoreM α} {say : α → Answer} {r : Request}
    (hr : r.run = request.answer say) (hkept : r = .reopen → s.inMemory = false)
    {result : Except StoreError α} (h : request.run s = (result, s₁)) : s.Later s₁ := by
  have hturn : s.Turn (r.run.run s).2 := .answered r hkept
  rw [hr, run_answer_snd, h] at hturn
  exact .single hturn

/-- A performer's name that is found by a number is resolved to it, and no other name is. -/
theorem Reachable.resolves_performer (hs : s.Reachable) (hopen : s.isOpen = true)
    (hwrite : s.readOnly = false) {name : String} {id : Int}
    (hid : s.tables.performerNamed? name = some id) (other : String) :
    ∃ id' s', (resolvePerformer other).run s = (.ok id', s') ∧
      (id' = id ↔ Text.trim other = name) := by
  have hrun := run_resolvePerformer hopen hwrite other
  have hadd := s.tables.additions_performerFor other
  refine ⟨_, _, hrun, (Tables.Sound.additions hadd hs.sound).performerNamed?_inj ?_
    (s.tables.performerNamed?_performerFor other)⟩
  exact (Tables.Additions.extends hadd).keepsNames.performerNamed? hid

/-- An album that is found by a number is resolved to it, and no other album is. -/
theorem Reachable.resolves_album (hs : s.Reachable) (hopen : s.isOpen = true)
    (hwrite : s.readOnly = false) {directory name : String} {id : Int}
    (hid : s.tables.albumNamed? directory name = some id) (directory' name' : String)
    (year : Int32) :
    ∃ id' s', (resolveAlbum directory' name' year).run s = (.ok id', s') ∧
      (id' = id ↔ directory' = directory ∧ name' = name) := by
  have hrun := run_resolveAlbum hopen hwrite directory' name' year
  have hadd := s.tables.additions_albumFor directory' name' year
  refine ⟨_, _, hrun, (Tables.Sound.additions hadd hs.sound).albumNamed?_inj ?_
    (s.tables.albumNamed?_albumFor directory' name' year)⟩
  exact (Tables.Additions.extends hadd).keepsNames.albumNamed? hid

/-- **A name is resolved to one row for good, and no other name ever is.**  Whatever an open store
that may be written is asked between two moments at which names of performers are resolved, the
numbers agree if and only if the trimmed names do; and the trimmed name is found by the number at
every later moment.  For albums the numbers agree if and only if the folders and the names do,
whatever the years; they are found by the number, and the album keeps the year that it was added
with. -/
theorem Reachable.resolution_stable (hs : s.Reachable) (hopen : s.isOpen = true)
    (hwrite : s.readOnly = false) :
    (∀ name, ∃ id s₁, (resolvePerformer name).run s = (.ok id, s₁) ∧
      ∀ s₂, s₁.Later s₂ → s₂.isOpen = true →
        (performerNamed? (Text.trim name)).run s₂ = (.ok (some id), s₂) ∧
        (s₂.readOnly = false → ∀ other, ∃ id' s₃,
          (resolvePerformer other).run s₂ = (.ok id', s₃) ∧
          (id' = id ↔ Text.trim other = Text.trim name))) ∧
    ∀ directory name year, ∃ id s₁ y, (resolveAlbum directory name year).run s = (.ok id, s₁) ∧
      (s.tables.albumNamed? directory name = none → y = year.toInt) ∧
      (∀ old, s.tables.albumNamed? directory name = some old →
        s.tables.album? old = some ⟨old, directory, name, y⟩) ∧
      ∀ s₂, s₁.Later s₂ →
        s₂.tables.album? id = some ⟨id, directory, name, y⟩ ∧
        (s₂.isOpen = true →
          (albumNamed? directory name).run s₂ = (.ok (some id), s₂) ∧
          (s₂.readOnly = false → ∀ directory' name' year', ∃ id' s₃,
            (resolveAlbum directory' name' year').run s₂ = (.ok id', s₃) ∧
            (id' = id ↔ directory' = directory ∧ name' = name))) := by
  constructor
  · intro name
    have hrun := run_resolvePerformer hopen hwrite name
    refine ⟨_, _, hrun, fun s₂ hlater hopen₂ => ?_⟩
    have hs₂ : s₂.Reachable :=
      hs.later ((later_of_run (r := .resolvePerformer name) rfl nofun hrun).trans hlater)
    have hfound := hlater.keeps.performerNamed? (s.tables.performerNamed?_performerFor name)
    refine ⟨?_, fun hwrite₂ other => hs₂.resolves_performer hopen₂ hwrite₂ hfound other⟩
    rw [run_performerNamed? hopen₂, hfound]
  · intro directory name year
    have hrun := run_resolveAlbum hopen hwrite directory name year
    obtain ⟨y, hrow, hnew, hold⟩ := hs.sound.album?_albumFor_eq directory name year
    refine ⟨_, _, y, hrun, hnew, hold, fun s₂ hlater =>
      ⟨hlater.keeps.album? hrow, fun hopen₂ => ?_⟩⟩
    have hs₂ : s₂.Reachable := hs.later
      ((later_of_run (r := .resolveAlbum directory name year) rfl nofun hrun).trans hlater)
    have hfound := hlater.keeps.albumNamed? (s.tables.albumNamed?_albumFor directory name year)
    refine ⟨?_, fun hwrite₂ directory' name' year' =>
      hs₂.resolves_album hopen₂ hwrite₂ hfound directory' name' year'⟩
    rw [run_albumNamed? hopen₂, hfound]

/-- A performer is found again, and nobody else is, after a row of the same name with blanks around
it was added past the store, another track was given to the performer, and the library was closed
and opened again. -/
theorem resolution_stable_oneTrack :
    ∃ id s₁ s₂, (resolvePerformer " Bo ").run oneTrack = (.ok id, s₁) ∧
      ((Request.runAll [.addPerformerRow (some 0) (some " Bo "),
        .updateTrack { lostLetter with artist := "Bo", id := 1 }, .close, .reopen]).run s₁).2 = s₂ ∧
      (performerNamed? "Bo").run s₂ = (.ok (some id), s₂) ∧
      ∀ other, ∃ id' s₃, (resolvePerformer other).run s₂ = (.ok id', s₃) ∧
        (id' = id ↔ Text.trim other = "Bo") := by
  obtain ⟨id, s₁, hrun, hlater⟩ := (reachable_oneTrack.resolution_stable rfl rfl).1 " Bo "
  have htrim : Text.trim " Bo " = "Bo" := by decide +kernel
  have hs₁ : s₁ = { oneTrack with tables := (oneTrack.tables.performerFor " Bo ").2 } :=
    congrArg Prod.snd (hrun.symm.trans (run_resolvePerformer rfl rfl " Bo "))
  obtain ⟨hnamed, hresolved⟩ := hlater ((Request.runAll [.addPerformerRow (some 0) (some " Bo "),
    .updateTrack { lostLetter with artist := "Bo", id := 1 }, .close, .reopen]).run s₁).2
    (later_runAll fun _ => by rw [hs₁]; rfl) (by rw [hs₁]; rfl)
  rw [htrim] at hnamed hresolved
  exact ⟨id, s₁, _, hrun, rfl, hnamed, hresolved (by rw [hs₁]; decide +kernel)⟩

/-- **Names are not resolved to one row for good in every store.**  A library in memory is another
one once it is opened again, and gives the number of one performer to a performer of another name;
and a store that may only be read resolves no name, be it that of a performer whom it has. -/
theorem resolution_unstable :
    (∃ s s' : Store, s.Reachable ∧
      ((Request.runAll [.resolvePerformer "Ann", .reopen]).run s).2 = s' ∧
      ((resolvePerformer "Ann").run s).1 = .ok 1 ∧ ((resolvePerformer "Bo").run s').1 = .ok 1 ∧
      Text.trim "Ann" ≠ Text.trim "Bo") ∧
    ∃ s : Store, s.Reachable ∧ s.isOpen = true ∧ s.tables.performerNamed? "Iris" = some 1 ∧
      (resolvePerformer "Iris").run s = (.error (.query .readOnly), s) :=
  ⟨⟨_, _, .new false true, rfl, by decide +kernel, by decide +kernel, by decide +kernel⟩,
    ⟨_, reachable_oneTrack.opened true rfl, rfl, by decide +kernel, run_change_readOnly rfl rfl _⟩⟩

end Store
end Fonoteca
