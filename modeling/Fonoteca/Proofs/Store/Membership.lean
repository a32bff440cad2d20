import Fonoteca.Proofs.Store.Closing
import Fonoteca.Proofs.Store.Independence
import Fonoteca.Proofs.Text.ByteOrder
import Mathlib.Data.List.Perm.Basic

/-!
# Membership from both sides

Who belongs to which group is a relation between persons and groups, and the store tells it from
either side as a sorted list of names.  All that is told comes from the history of the store: from
the requests to join that went well, however often and in whatever order they were made, and from
the names that persons and groups were given last.

* `History` is what a store was asked and what it answered.  `History.stageName` and
  `History.groupName` are the names that persons and groups have after it, `History.Joined` the
  pairs that were joined in it.
* `IsRoll` says of a list of names that it is sorted and has one entry for each of some rows, which
  may have equal names; there is no other such list (`IsRoll.unique`).
* `History.Fits` says of tables that they hold what a history says, and **`History.Fits.answered`**
  that each answer keeps them so.
* `Store.HasAnswered` says that a library has answered a history, and has perhaps been opened again
  in another mode in between.
* **`Store.memberships_of_history`** : what is told of a group and of a person after any history.
-/

set_option autoImplicit false

namespace Fonoteca

open Tables (SameBut withoutTracks Sound)

variable {α : Type}

/-! ## Lists of names -/

/-- A list of the names of some rows, each row once: it is in the order of the bytes of the names,
and the rows can be listed, without repetition, so that their names are the ones in the list. -/
structure IsRoll (name : Int → Option String) (listed : Int → Prop) (names : List String) :
    Prop where
  sorted : names.Pairwise fun a b => Text.Utf8.encode a ≤ Text.Utf8.encode b
  exists_ids : ∃ ids : List Int, ids.Nodup ∧ (∀ i, i ∈ ids ↔ listed i) ∧
    (names.map some).Perm (ids.map name)

theorem encode_le_encode_iff {a b : String} :
    Text.Utf8.encode a ≤ Text.Utf8.encode b ↔ a ≤ b := by
  rw [← List.not_lt, Text.Utf8.encode_lt_encode_iff, String.not_lt]

/-- **Which rows are listed settles the list.** -/
theorem IsRoll.unique {name : Int → Option String} {listed : Int → Prop} {names names' : List String}
    (h : IsRoll name listed names) (h' : IsRoll name listed names') : names = names' := by
  obtain ⟨ids, hnodup, hmem, hperm⟩ := h.exists_ids
  obtain ⟨ids', hnodup', hmem', hperm'⟩ := h'.exists_ids
  have hids : ids.Perm ids' :=
    (List.perm_ext_iff_of_nodup hnodup hnodup').2 fun i => (hmem i).trans (hmem' i).symm
  have hnames : names.Perm names' := by
    rw [← List.map_perm_map_iff fun _ _ => Option.some.inj]
    exact hperm.trans ((hids.map name).trans hperm'.symm)
  refine hnames.eq_of_pairwise (fun a b _ _ hab hba => ?_) h.sorted h'.sorted
  rw [encode_le_encode_iff] at hab hba
  exact String.le_antisymm hab hba

theorem Tables.pairwise_sortNames (names : List String) :
    (sortNames names).Pairwise fun a b => Text.Utf8.encode a ≤ Text.Utf8.encode b := by
  have hsorted : (sortNames names).Pairwise fun a b => decide (a ≤ b) = true :=
    List.pairwise_mergeSort (fun a b c hab hbc => by
      simp only [decide_eq_true_eq] at *
      exact String.le_trans hab hbc)
      (fun a b => by simpa using String.le_total a b) names
  exact hsorted.imp fun h => encode_le_encode_iff.2 (of_decide_eq_true h)

/-- The sorted names of some rows, each of which is there and is listed once. -/
theorem isRoll_sortNames {name : Int → Option String} {listed : Int → Prop} {ids : List Int}
    (hnodup : ids.Nodup) (hmem : ∀ i, i ∈ ids ↔ listed i) (hsome : ∀ i ∈ ids, (name i).isSome) :
    IsRoll name listed (Tables.sortNames (ids.filterMap name)) where
  sorted := Tables.pairwise_sortNames _
  exists_ids := by
    refine ⟨ids, hnodup, hmem, ?_⟩
    have hall : (ids.filterMap name).map some = ids.map name := by
      clear hnodup hmem
      induction ids with
      | nil => rfl
      | cons i ids ih =>
        obtain ⟨a, ha⟩ := Option.isSome_iff_exists.1 (hsome i (by simp))
        rw [List.filterMap_cons_some ha, List.map_cons, List.map_cons, ha,
          ih fun j hj => hsome j (List.mem_cons_of_mem i hj)]
    rw [← hall]
    exact (List.mergeSort_perm _ _).map some

/-! ## Histories -/

/-- Whether a request, if it goes well, writes about persons, groups or memberships. -/
def Request.writesPeople : Request → Bool
  | .addPerson _ => true
  | .updatePerson _ => true
  | .addGroup _ => true
  | .updateGroup _ => true
  | .join _ _ => true
  | _ => false

/-- What a store was asked, and what it answered. -/
abbrev History := List (Request × Answer)

namespace History

variable {h : History} {asked : Request × Answer}

/-- The stage name of a person after one more answer, given the one before it. -/
def tellStageName (person : Int) (name : Option String) : Request × Answer → Option String
  | (.addPerson p, .id n) => if person = n then some p.stageName else name
  | (.updatePerson p, .done) => if person = p.id then name.map fun _ => p.stageName else name
  | _ => name

/-- The name of a group after one more answer, given the one before it. -/
def tellGroupName (group : Int) (name : Option String) : Request × Answer → Option String
  | (.addGroup g, .id n) => if group = n then some g.name else name
  | (.updateGroup g, .done) => if group = g.id then name.map fun _ => g.name else name
  | _ => name

/-- The stage name that a person was given last, if the person was ever added. -/
def stageName (h : History) (person : Int) : Option String :=
  h.foldl (tellStageName person) none

/-- The name that a group was given last, if the group was ever added. -/
def groupName (h : History) (group : Int) : Option String :=
  h.foldl (tellGroupName group) none

/-- A person was put into a group by a request that went well. -/
def Joined (h : History) (person group : Int) : Prop :=
  (.join person group, .done) ∈ h

theorem stageName_concat (h : History) (asked : Request × Answer) (person : Int) :
    stageName (h ++ [asked]) person = tellStageName person (h.stageName person) asked := by
  rw [stageName, List.foldl_append, ← stageName]
  rfl

theorem groupName_concat (h : History) (asked : Request × Answer) (group : Int) :
    groupName (h ++ [asked]) group = tellGroupName group (h.groupName group) asked := by
  rw [groupName, List.foldl_append, ← groupName]
  rfl

theorem joined_concat_iff {person group : Int} :
    Joined (h ++ [asked]) person group ↔
      h.Joined person group ∨ asked = (.join person group, .done) := by
  rw [Joined, List.mem_append, List.mem_singleton, Joined, eq_comm]

/-- An answer from which neither a name nor a membership follows. -/
structure Silent (asked : Request × Answer) : Prop where
  stageName : ∀ person name, tellStageName person name asked = name
  groupName : ∀ group name, tellGroupName group name asked = name
  joined : ∀ person group, asked ≠ (.join person group, .done)

theorem silent_of_not_writesPeople {request : Request} (hrequest : request.writesPeople = false)
    (answer : Answer) : Silent (request, answer) := by
  cases request with
  | addPerson | updatePerson | addGroup | updateGroup | join => cases hrequest
  | _ => exact ⟨fun _ _ => rfl, fun _ _ => rfl, by simp⟩

theorem silent_refused (request : Request) (e : StoreError) : Silent (request, .refused e) := by
  cases request <;> exact ⟨fun _ _ => rfl, fun _ _ => rfl, by simp⟩

end History

/-! ## What tables hold of a history -/

/-- The tables hold what a history says of persons, groups and memberships. -/
structure History.Fits (h : History) (t : Tables) : Prop where
  stageName : ∀ p, (t.person? p).map (·.stageName) = h.stageName p
  groupName : ∀ g, (t.group? g).map (·.name) = h.groupName g
  joined : ∀ p g, ⟨p, g⟩ ∈ t.memberships ↔ h.Joined p g

/-- A row that is put at the end with the next number is found by it, and the others as before. -/
theorem find?_concat_nextId (id : α → Int) (rows : List α) {row : α}
    (hrow : id row = nextId (rows.map id)) (i : Int) :
    (rows ++ [row]).find? (fun r => id r = i) =
      if i = nextId (rows.map id) then some row else rows.find? fun r => id r = i := by
  rw [List.find?_append]
  split
  · next hi =>
    have hnone : rows.find? (fun r => id r = i) = none := by
      refine List.find?_eq_none.2 fun r hr hid => ?_
      have hlt := lt_nextId (List.mem_map_of_mem (f := id) hr)
      rw [of_decide_eq_true hid, hi] at hlt
      exact Int.lt_irrefl _ hlt
    rw [hnone, Option.none_or, List.find?_cons_of_pos (by simp [hrow, hi])]
  · next hi =>
    rw [List.find?_cons_of_neg (by simpa [hrow] using Ne.symm hi), List.find?_nil, Option.or_none]

/-- A row that is written anew is found if there was one with its number. -/
theorem find?_rewrite {id : α → Int} (rows : List α) (row : α) (i : Int) :
    (rows.map fun r => if id r = id row then row else r).find? (fun r => id r = i) =
      if i = id row then (rows.find? fun r => id r = i).map fun _ => row
      else rows.find? fun r => id r = i := by
  have hid : ∀ r, id (if id r = id row then row else r) = id r := by
    intro r
    split
    · next h => exact h.symm
    · rfl
  rw [List.find?_map]
  simp only [Function.comp_def, hid]
  cases hfound : rows.find? fun r => id r = i with
  | none => simp
  | some r =>
    have hr : id r = i := by simpa using List.find?_some hfound
    simp only [Option.map_some, hr]
    split <;> rfl

namespace Tables

variable (t : Tables)

theorem person?_addPerson (p : Person) (i : Int) :
    (t.addPerson p).2.person? i =
      if i = t.nextPerson then some { p with id := t.nextPerson } else t.person? i :=
  find?_concat_nextId Person.id t.persons rfl i

theorem group?_addGroup (g : Group) (i : Int) :
    (t.addGroup g).2.group? i =
      if i = t.nextGroup then some { g with id := t.nextGroup } else t.group? i :=
  find?_concat_nextId Group.id t.groups rfl i

theorem person?_updatePerson (p : Person) (i : Int) :
    (t.updatePerson p).person? i =
      if i = p.id then (t.person? i).map fun _ => p else t.person? i :=
  find?_rewrite t.persons p i

theorem group?_updateGroup (g : Group) (i : Int) :
    (t.updateGroup g).group? i = if i = g.id then (t.group? i).map fun _ => g else t.group? i :=
  find?_rewrite t.groups g i

end Tables

/-- Where only what is about tracks has changed, persons, groups and memberships are the same. -/
theorem Tables.SameBut.people {t u : Tables} (h : SameBut withoutTracks t u) :
    u.persons = t.persons ∧ u.groups = t.groups ∧ u.memberships = t.memberships := by
  simpa only [SameBut, withoutTracks, Tables.mk.injEq, true_and] using h

/-- Who joins a group is a member of it from then on, and nothing else is written. -/
theorem Tables.addMembership_eq_ok {t u : Tables} {person group : Int}
    (h : t.addMembership person group = .ok u) :
    u.persons = t.persons ∧ u.groups = t.groups ∧
      ∀ m, m ∈ u.memberships ↔ m ∈ t.memberships ∨ m = ⟨person, group⟩ := by
  rw [addMembership] at h
  split at h
  · next hmem =>
    cases h
    refine ⟨rfl, rfl, fun m => ⟨.inl, ?_⟩⟩
    rintro (hm | rfl)
    · exact hm
    · exact hmem
  · obtain ⟨_, -, h⟩ := bind_eq_ok h
    cases h
    exact ⟨rfl, rfl, fun m => by rw [List.mem_append, List.mem_singleton]⟩

namespace History.Fits

variable {h : History} {asked : Request × Answer} {t u : Tables}

theorem nil : Fits [] {} where
  stageName _ := rfl
  groupName _ := rfl
  joined _ _ := by simp [Joined]

/-- What is silent leaves what is said of people as it is. -/
theorem concat_silent (ht : h.Fits t) (hasked : Silent asked)
    (hsame : SameBut withoutTracks t u) : Fits (h ++ [asked]) u := by
  obtain ⟨hpersons, hgroups, hmemberships⟩ := hsame.people
  refine ⟨fun p => ?_, fun g => ?_, fun p g => ?_⟩
  · rw [stageName_concat, hasked.stageName, ← ht.stageName, Tables.person?, hpersons,
      Tables.person?]
  · rw [groupName_concat, hasked.groupName, ← ht.groupName, Tables.group?, hgroups,
      Tables.group?]
  · rw [joined_concat_iff, hmemberships, ht.joined]
    simp [hasked.joined p g]

theorem addPerson (ht : h.Fits t) (p : Person) :
    Fits (h ++ [(.addPerson p, .id t.nextPerson)]) (t.addPerson p).2 where
  stageName i := by
    rw [stageName_concat, ← ht.stageName, Tables.person?_addPerson, tellStageName,
      apply_ite (Option.map Person.stageName), Option.map_some]
  groupName g := by
    rw [groupName_concat, ← ht.groupName]
    rfl
  joined p' g := by
    rw [joined_concat_iff, ← ht.joined]
    simp [Tables.addPerson]

theorem updatePerson (ht : h.Fits t) (p : Person) :
    Fits (h ++ [(.updatePerson p, .done)]) (t.updatePerson p) where
  stageName i := by
    rw [stageName_concat, ← ht.stageName, Tables.person?_updatePerson, tellStageName,
      apply_ite (Option.map Person.stageName), Option.map_map, Option.map_map]
    rfl
  groupName g := by
    rw [groupName_concat, ← ht.groupName]
    rfl
  joined p' g := by
    rw [joined_concat_iff, ← ht.joined]
    simp [Tables.updatePerson]

theorem addGroup (ht : h.Fits t) (g : Group) :
    Fits (h ++ [(.addGroup g, .id t.nextGroup)]) (t.addGroup g).2 where
  stageName p := by
    rw [stageName_concat, ← ht.stageName]
    rfl
  groupName i := by
    rw [groupName_concat, ← ht.groupName, Tables.group?_addGroup, tellGroupName,
      apply_ite (Option.map Group.name), Option.map_some]
  joined p g' := by
    rw [joined_concat_iff, ← ht.joined]
    simp [Tables.addGroup]

theorem updateGroup (ht : h.Fits t) (g : Group) :
    Fits (h ++ [(.updateGroup g, .done)]) (t.updateGroup g) where
  stageName p := by
    rw [stageName_concat, ← ht.stageName]
    rfl
  groupName i := by
    rw [groupName_concat, ← ht.groupName, Tables.group?_updateGroup, tellGroupName,
      apply_ite (Option.map Group.name), Option.map_map, Option.map_map]
    rfl
  joined p g' := by
    rw [joined_concat_iff, ← ht.joined]
    simp [Tables.updateGroup]

theorem join (ht : h.Fits t) {p g : Int} (hu : t.addMembership p g = .ok u) :
    Fits (h ++ [(.join p g, .done)]) u := by
  obtain ⟨hpersons, hgroups, hmemberships⟩ := Tables.addMembership_eq_ok hu
  refine ⟨fun i => ?_, fun i => ?_, fun p' g' => ?_⟩
  · rw [stageName_concat, ← ht.stageName, Tables.person?, hpersons]
    rfl
  · rw [groupName_concat, ← ht.groupName, Tables.group?, hgroups]
    rfl
  · rw [joined_concat_iff, ← ht.joined, hmemberships]
    simp [eq_comm]

end History.Fits

/-! ## Answers and what they tell -/

/-- What writes neither about persons nor about groups or memberships leaves them as they are. -/
theorem Request.sameBut_run {request : Request} (hrequest : request.writesPeople = false)
    {s : Store} (hkept : request = .reopen → s.inMemory = false) :
    SameBut withoutTracks s.tables (request.run.run s).2.tables := by
  have hunseen : Unseen withoutTracks request.run →
      SameBut withoutTracks s.tables (request.run.run s).2.tables :=
    fun h => congrArg Store.tables (h s)
  cases request with
  | addPerson | updatePerson | addGroup | updateGroup | join => cases hrequest
  | setKind id kind =>
    have hstep : Stepwise (SameBut withoutTracks) (Store.setKind id kind).run :=
      stepwise_change_ok fun _ => .single rfl
    exact hunseen (hstep.answer _).unseen
  | person | personNamed | personNames | group | groupNamed | groupNames | members | groupsOf =>
    exact hunseen ((stepwise_ask _).answer _).unseen
  | close => rfl
  | reopen =>
    have htables : (Request.reopen.run.run s).2.tables = s.tables :=
      if_neg (by simp [hkept rfl])
    rw [htables]
    rfl
  | _ => exact hunseen (Request.unseen_of_aboutTracks rfl)

/-- What is answered to a change: it is refused and the store stays, or it has been made. -/
theorem Store.answer_change (s : Store) (update : Tables → Except StoreError (α × Tables))
    (say : α → Answer) :
    (∃ e, ((change update).answer say).run s = (.refused e, s)) ∨
      ∃ a u, update s.tables = .ok (a, u) ∧
        ((change update).answer say).run s = (say a, { s with tables := u }) := by
  rcases hrun : (change update).run s with ⟨e | a, s'⟩
  · obtain rfl := change_eq_error hrun
    exact .inl ⟨e, StoreM.answer_of_error hrun say⟩
  · obtain ⟨-, -, u, hu, rfl⟩ := change_eq_ok hrun
    refine .inr ⟨a, u, hu, ?_⟩
    rw [StoreM.answer, StateT.run_bind, show (change update).run.run s = _ from hrun]
    rfl

/-- **An answer keeps the tables as the history says**, which has become longer by it. -/
theorem History.Fits.answered {h : History} {s : Store} (ht : h.Fits s.tables) (request : Request)
    (hkept : request = .reopen → s.inMemory = false) :
    Fits (h ++ [(request, (request.run.run s).1)]) (request.run.run s).2.tables := by
  -- of a change that is refused nothing is told, and nothing is written
  have hchange : ∀ {α : Type} (update : Tables → Except StoreError (α × Tables)) (say : α → Answer),
      request.run = (Store.change update).answer say →
      (∀ a u, update s.tables = .ok (a, u) → Fits (h ++ [(request, say a)]) u) →
      Fits (h ++ [(request, (request.run.run s).1)]) (request.run.run s).2.tables := by
    intro α update say hrun hfits
    obtain ⟨e, hanswer⟩ | ⟨a, u, hu, hanswer⟩ := s.answer_change update say
    · rw [hrun, hanswer]
      exact ht.concat_silent (silent_refused request e) rfl
    · rw [hrun, hanswer]
      exact hfits a u hu
  cases hwrites : request.writesPeople with
  | false =>
    exact ht.concat_silent (silent_of_not_writesPeople hwrites _)
      (Request.sameBut_run hwrites hkept)
  | true =>
    cases request with
    | addPerson p =>
      refine hchange _ _ rfl fun a u hu => ?_
      cases hu
      exact ht.addPerson p
    | updatePerson p =>
      refine hchange _ _ rfl fun a u hu => ?_
      cases hu
      exact ht.updatePerson p
    | addGroup g =>
      refine hchange _ _ rfl fun a u hu => ?_
      cases hu
      exact ht.addGroup g
    | updateGroup g =>
      refine hchange _ _ rfl fun a u hu => ?_
      cases hu
      exact ht.updateGroup g
    | join p g =>
      refine hchange _ _ rfl fun a u hu => ?_
      have hjoined := Store.classify_eq_ok_iff.1 hu
      cases hadd : s.tables.addMembership p g with
      | error e =>
        rw [hadd] at hjoined
        cases hjoined
      | ok v =>
        rw [hadd] at hjoined
        cases hjoined
        exact ht.join hadd
    | _ => cases hwrites

/-! ## The two sides -/

/-- A list of memberships, read from one side: the names of those who stand on the other side of a
row of this one. -/
theorem isRoll_memberships {ms : List Membership} (hnodup : ms.Nodup)
    {side other : Membership → Int}
    (hsides : ∀ m m', side m = side m' → other m = other m' → m = m') (i : Int)
    {name : Int → Option String} (hsome : ∀ m ∈ ms, (name (other m)).isSome) :
    IsRoll name (fun j => ∃ m ∈ ms, side m = i ∧ other m = j)
      (Tables.sortNames ((ms.filter fun m => side m = i).filterMap fun m => name (other m))) := by
  have hids : ((ms.filter fun m => side m = i).filterMap fun m => name (other m)) =
      ((ms.filter fun m => side m = i).map other).filterMap name := by
    rw [List.filterMap_map]
    rfl
  rw [hids]
  refine isRoll_sortNames ?_ (fun j => ?_) (fun j hj => ?_)
  · refine (hnodup.filter _).map_on fun m hm m' hm' hother => ?_
    have hside : side m = i := by simpa using (List.mem_filter.1 hm).2
    have hside' : side m' = i := by simpa using (List.mem_filter.1 hm').2
    exact hsides m m' (hside.trans hside'.symm) hother
  · simp only [List.mem_map, List.mem_filter, decide_eq_true_eq, and_assoc]
  · obtain ⟨m, hm, rfl⟩ := List.mem_map.1 hj
    exact hsome m (List.mem_filter.1 hm).1

namespace Tables

variable {t : Tables} {h : History}

/-- The members of a group, as the history tells them. -/
theorem Sound.isRoll_members (hsound : Sound t) (ht : h.Fits t) (g : Int) :
    IsRoll h.stageName (fun p => h.Joined p g) (t.members g) := by
  have hlisted : (fun p => h.Joined p g) =
      fun p => ∃ m ∈ t.memberships, m.group = g ∧ m.person = p := by
    funext p
    rw [← ht.joined, eq_iff_iff]
    exact ⟨fun hm => ⟨_, hm, rfl, rfl⟩, fun ⟨m, hm, hgroup, hperson⟩ => hgroup ▸ hperson ▸ hm⟩
  rw [hlisted, members]
  simp only [ht.stageName]
  refine isRoll_memberships hsound.memberships (fun m m' hgroup hperson => ?_) g fun m hm => ?_
  · cases m
    exact congrArg₂ Membership.mk hperson hgroup
  · rw [← ht.stageName, Option.isSome_map, isSome_person?_iff]
    exact (hsound.membersThere m hm).1

/-- The groups of a person, as the history tells them. -/
theorem Sound.isRoll_groupsOf (hsound : Sound t) (ht : h.Fits t) (p : Int) :
    IsRoll h.groupName (h.Joined p) (t.groupsOf p) := by
  have hlisted : h.Joined p = fun g => ∃ m ∈ t.memberships, m.person = p ∧ m.group = g := by
    funext g
    rw [← ht.joined, eq_iff_iff]
    exact ⟨fun hm => ⟨_, hm, rfl, rfl⟩, fun ⟨m, hm, hperson, hgroup⟩ => hgroup ▸ hperson ▸ hm⟩
  rw [hlisted, groupsOf]
  simp only [ht.groupName]
  refine isRoll_memberships hsound.memberships (fun m m' hperson hgroup => ?_) p fun m hm => ?_
  · cases m
    exact congrArg₂ Membership.mk hperson hgroup
  · rw [← ht.groupName, Option.isSome_map, isSome_group?_iff]
    exact (hsound.membersThere m hm).2

/-- Nobody joins a group who is not there, and no group is joined that is not. -/
theorem Sound.addMembership_eq_error (hsound : Sound t) {p g : Int}
    (hmissing : t.person? p = none ∨ t.group? g = none) :
    t.addMembership p g = .error .danglingReference := by
  have hnot : ¬((t.person? p).isSome ∧ (t.group? g).isSome) := by
    rintro ⟨hperson, hgroup⟩
    obtain hnone | hnone := hmissing
    · simp [hnone] at hperson
    · simp [hnone] at hgroup
  -- such a pair is not taken for one that is there already
  have hnew : ⟨p, g⟩ ∉ t.memberships := by
    intro hm
    obtain ⟨hperson, hgroup⟩ := hsound.membersThere _ hm
    exact hnot ⟨isSome_person?_iff.2 hperson, isSome_group?_iff.2 hgroup⟩
  rw [Tables.addMembership, if_neg hnew, demand, if_neg hnot]
  rfl

theorem addMembership_of_isSome {p g : Int} (hperson : (t.person? p).isSome)
    (hgroup : (t.group? g).isSome) : ∃ u, t.addMembership p g = .ok u := by
  rw [addMembership]
  split
  · exact ⟨_, rfl⟩
  · rw [demand, if_pos ⟨hperson, hgroup⟩]
    exact ⟨_, rfl⟩

end Tables

namespace Store

variable {s : Store} {h : History}

/-- A library has answered a history since it was new.  In between its database may have been opened
again in another mode, for reading only or not.  A library in memory is another new one when it is
opened again. -/
inductive HasAnswered : Store → History → Prop
  | new (readOnly inMemory : Bool) : HasAnswered { readOnly, inMemory } []
  | opened {s : Store} {h : History} (readOnly : Bool) (hdisk : s.inMemory = false)
      (hs : HasAnswered s h) : HasAnswered { s with isOpen := true, readOnly } h
  | answered {s : Store} {h : History} (request : Request)
      (hkept : request = .reopen → s.inMemory = false) (hs : HasAnswered s h) :
      HasAnswered (request.run.run s).2 (h ++ [(request, (request.run.run s).1)])

theorem HasAnswered.fits (hs : s.HasAnswered h) : h.Fits s.tables := by
  induction hs with
  | new readOnly inMemory => exact .nil
  | opened readOnly hdisk hs ih => exact ih
  | answered request hkept hs ih => exact ih.answered request hkept

theorem HasAnswered.reachable (hs : s.HasAnswered h) : s.Reachable := by
  induction hs with
  | new readOnly inMemory => exact .new readOnly inMemory
  | opened readOnly hdisk hs ih => exact ih.opened readOnly hdisk
  | answered request hkept hs ih => exact ih.answered request

theorem HasAnswered.sound (hs : s.HasAnswered h) : s.tables.Sound :=
  hs.reachable.sound

/-- Requests that are answered one after the other go to the end of the history. -/
theorem HasAnswered.runAll (hs : s.HasAnswered h) (requests : List Request)
    (hkept : .reopen ∈ requests → s.inMemory = false) :
    ((Request.runAll requests).run s).2.HasAnswered
      (h ++ requests.zip ((Request.runAll requests).run s).1) := by
  induction requests generalizing h s with
  | nil =>
    rw [List.zip_nil_left, List.append_nil]
    exact hs
  | cons request requests ih =>
    have hnext := hs.answered request fun heq => hkept (by simp [heq])
    have hkept' : .reopen ∈ requests → (request.run.run s).2.inMemory = false := by
      intro hmem
      rw [inMemory_run]
      exact hkept (List.mem_cons_of_mem _ hmem)
    rw [Request.runAll_cons, List.zip_cons_cons, List.append_cons]
    exact ih hnext hkept'

/-- **Memberships are a relation, told from both sides.**  After any history the members of a group
are listed by the bytes of their stage names, one entry for each person whom a request to join that
went well has put into the group, with the stage name that the person was given last; and the groups
of a person are so by their names.  Whoever is not there joins no group, and nobody joins a group
that is not there: a library that may be written refuses that and stays as it is, and one that was
opened for reading only does so whoever joins.  So the lists are the same after two histories in
which the same pairs were joined, if the names are. -/
theorem memberships_of_history (hs : s.HasAnswered h) (hopen : s.isOpen = true) :
    (∀ g, ∃ names, (members g).run s = (.ok names, s) ∧
      IsRoll h.stageName (fun p => h.Joined p g) names) ∧
    (∀ p, ∃ names, (groupsOf p).run s = (.ok names, s) ∧
      IsRoll h.groupName (fun g => h.Joined p g) names) ∧
    (s.readOnly = false → ∀ p g, h.stageName p = none ∨ h.groupName g = none →
      (join p g).run s = (.error (.constraint "FOREIGN KEY constraint failed"), s)) ∧
    (s.readOnly = false → ∀ p g, (h.stageName p).isSome → (h.groupName g).isSome →
      ∃ s', (join p g).run s = (.ok (), s')) ∧
    (s.readOnly = true → ∀ p g, (join p g).run s = (.error (.query .readOnly), s)) ∧
    ∀ (h' : History) (s' : Store), s'.HasAnswered h' → s'.isOpen = true →
      (∀ p g, h'.Joined p g ↔ h.Joined p g) → h'.stageName = h.stageName →
      h'.groupName = h.groupName →
      (∀ g, ((members g).run s').1 = ((members g).run s).1) ∧
        ∀ p, ((groupsOf p).run s').1 = ((groupsOf p).run s).1 := by
  have hasked : ∀ {α : Type} (read : Tables → Except StoreError α), (ask read).run s =
      (read s.tables, s) := fun read => run_ask hopen read
  refine ⟨fun g => ⟨_, hasked _, hs.sound.isRoll_members hs.fits g⟩,
    fun p => ⟨_, hasked _, hs.sound.isRoll_groupsOf hs.fits p⟩, fun hwrite p g hmissing => ?_,
    fun hwrite p g hperson hgroup => ?_, fun hread p g => run_change_readOnly hopen hread _,
    fun h' s' hs' hopen' hjoined hstage hgroup => ⟨fun g => ?_, fun p => ?_⟩⟩
  · rw [← hs.fits.stageName, ← hs.fits.groupName, Option.map_eq_none_iff,
      Option.map_eq_none_iff] at hmissing
    refine run_change_error hopen hwrite ?_
    rw [hs.sound.addMembership_eq_error hmissing]
    rfl
  · rw [← hs.fits.stageName, Option.isSome_map] at hperson
    rw [← hs.fits.groupName, Option.isSome_map] at hgroup
    obtain ⟨u, hu⟩ := Tables.addMembership_of_isSome hperson hgroup
    refine ⟨_, run_change_ok hopen hwrite (u := u) ?_⟩
    rw [hu]
    rfl
  · have hroll := hs'.sound.isRoll_members hs'.fits g
    simp only [hstage, hjoined] at hroll
    rw [members, run_ask hopen, run_ask hopen']
    exact congrArg Except.ok (hroll.unique (hs.sound.isRoll_members hs.fits g))
  · have hroll := hs'.sound.isRoll_groupsOf hs'.fits p
    have hgroups : h'.Joined p = h.Joined p := funext fun g => propext (hjoined p g)
    rw [hgroup, hgroups] at hroll
    rw [groupsOf, run_ask hopen, run_ask hopen']
    exact congrArg Except.ok (hroll.unique (hs.sound.isRoll_groupsOf hs.fits p))

/-- Two persons get one name after they have joined a group, one of them twice; another person is
not there. -/
def namesakes : History :=
  [(.addPerson { stageName := "Ann" }, .id 1), (.addPerson { stageName := "Bo" }, .id 2),
    (.addGroup { name := "Duo" }, .id 1), (.join 2 1, .done), (.join 1 1, .done),
    (.join 2 1, .done), (.updatePerson { id := 2, stageName := "Ann" }, .done),
    (.join 3 1, .refused (.constraint "FOREIGN KEY constraint failed"))]

/-- The library after it. -/
def namesakesStore : Store where
  tables := {
    persons := [{ id := 1, stageName := "Ann" }, { id := 2, stageName := "Ann" }]
    groups := [{ id := 1, name := "Duo" }]
    memberships := [⟨2, 1⟩, ⟨1, 1⟩] }

/-- Both of them are listed, and nobody else.  Opened again for reading only, the library lets nobody
join. -/
theorem memberships_of_history_namesakes :
    namesakesStore.HasAnswered namesakes ∧ namesakesStore.isOpen = true ∧
      (members 1).run namesakesStore = (.ok ["Ann", "Ann"], namesakesStore) ∧
      IsRoll namesakes.stageName (fun p => namesakes.Joined p 1) ["Ann", "Ann"] ∧
      (join 3 1).run namesakesStore =
        (.error (.constraint "FOREIGN KEY constraint failed"), namesakesStore) ∧
      (join 1 1).run { namesakesStore with readOnly := true } =
        (.error (.query .readOnly), { namesakesStore with readOnly := true }) := by
  have hrun : (Request.runAll (namesakes.map Prod.fst)).run {} =
      (namesakes.map Prod.snd, namesakesStore) :=
    Prod.ext (by decide +kernel) (by decide +kernel)
  have hs := (HasAnswered.new false false).runAll (namesakes.map Prod.fst) fun _ => rfl
  rw [hrun, List.nil_append, ← List.zip_of_prod rfl rfl] at hs
  obtain ⟨hmembers, -, hrefused, -⟩ := memberships_of_history hs rfl
  obtain ⟨-, -, -, -, hreadOnly, -⟩ := memberships_of_history (hs.opened true rfl) rfl
  have hnames : namesakesStore.tables.members 1 = ["Ann", "Ann"] :=
    List.mergeSort_of_pairwise (by decide)
  have hlist : (members 1).run namesakesStore = (.ok ["Ann", "Ann"], namesakesStore) := by
    rw [members, run_ask rfl, hnames]
  obtain ⟨names, hrun, hroll⟩ := hmembers 1
  obtain rfl : ["Ann", "Ann"] = names := Except.ok.inj (congrArg Prod.fst (hlist.symm.trans hrun))
  exact ⟨hs, rfl, hlist, hroll, hrefused rfl 3 1 (.inl rfl), hreadOnly rfl 1 1⟩

end Store

end Fonoteca
