import Fonoteca.CommandLine.Action
import Fonoteca.Proofs.Store.Stepwise

/-!
# What a command does to the store

From a stage on, an action `Leads` through steps of a kind if these take the tables to where the
action leaves them, whether it fails or not, and nothing else of the store changes.  What an action
does may depend on what it has looked up before, so this is said of one stage at a time.

* `Leads.bind` goes on from the stage that the first part leaves, with what this part has found.
* `leads_request` : a request that is stepwise in every store leads through its steps.
* `leads_change` : a single change leads through the step that it is at this stage.
* `run_request_ask` : what is looked up is what stands in the tables, and nothing changes.
* **`leads_of_isQuery`** : the commands that only show something lead nowhere.
-/

set_option autoImplicit false

namespace Fonoteca

variable {α β : Type} {r : Tables → Tables → Prop} {s : Stage}

namespace ActionM

/-- From a stage on, an action takes the tables through steps of a kind, and changes nothing else of
the store. -/
def Leads (r : Tables → Tables → Prop) (act : ActionM α) (s : Stage) : Prop :=
  ∃ u, Relation.ReflTransGen r s.store.tables u ∧
    (act.run.run s).2.store = { s.store with tables := u }

/-- An action that leaves the store alone leads nowhere. -/
theorem Leads.of_same {act : ActionM α} (h : (act.run.run s).2.store = s.store) : Leads r act s :=
  ⟨s.store.tables, .refl, h⟩

/-! ## Parts of an action -/

theorem Leads.bind {act : ActionM α} {next : α → ActionM β} (h : Leads r act s)
    (hnext : ∀ a, (act.run.run s).1 = .ok a → Leads r (next a) (act.run.run s).2) :
    Leads r (act >>= next) s := by
  obtain ⟨u, hu, hs⟩ := h
  have hrun : ((act >>= next).run.run s) =
      ExceptT.bindCont next (act.run.run s).1 (act.run.run s).2 := rfl
  rw [Leads, hrun]
  cases hresult : (act.run.run s).1 with
  | error e => exact ⟨u, hu, hs⟩
  | ok a =>
    obtain ⟨v, hv, hs'⟩ := hnext a hresult
    rw [hs] at hv hs'
    exact ⟨v, hu.trans hv, hs'⟩

theorem leads_pure (a : α) : Leads r (pure a) s :=
  .of_same rfl

theorem leads_throw (e : CommandFailure) : Leads r (throw e : ActionM α) s :=
  .of_same rfl

theorem leads_print (line : String) : Leads r (print line) s :=
  .of_same rfl

theorem leads_remark (line : String) : Leads r (remark line) s :=
  .of_same rfl

theorem leads_forM {act : α → ActionM Unit} (h : ∀ a s, Leads r (act a) s) (as : List α) :
    Leads r (as.forM act) s := by
  induction as generalizing s with
  | nil => exact leads_pure ()
  | cons a as ih => exact (h a s).bind fun _ _ => ih

theorem leads_mapM {act : α → ActionM β} (h : ∀ a s, Leads r (act a) s) (as : List α) :
    Leads r (as.mapM act) s := by
  induction as generalizing s with
  | nil => exact leads_pure []
  | cons a as ih =>
    rw [List.mapM_cons]
    exact (h a s).bind fun _ _ => ih.bind fun _ _ => leads_pure _

theorem leads_printAll (lines : List String) : Leads r (printAll lines) s :=
  leads_forM (fun line _ => leads_print line) lines

/-! ## The store -/

theorem leads_inStore {act : StateM Store α} (h : Stepwise r act) : Leads r (inStore act) s := by
  obtain ⟨u, hu, -, hs⟩ := h s.store
  exact ⟨u, hu, hs⟩

theorem leads_requestAs {report : StoreError → CommandFailure} {request : StoreM α}
    (h : Stepwise r request.run) : Leads r (requestAs report request) s := by
  refine (leads_inStore h).bind fun result _ => ?_
  cases result with
  | ok a => exact leads_pure a
  | error e => exact leads_throw _

/-- A request leads through the steps that it is made of. -/
theorem leads_request {request : StoreM α} (h : Stepwise r request.run) :
    Leads r (ActionM.request request) s :=
  leads_requestAs h

theorem leads_require {what : String} {find : StoreM (Option α)} (h : Stepwise r find.run) :
    Leads r (require what find) s := by
  refine (leads_request h).bind fun found _ => ?_
  cases found with
  | some a => exact leads_pure a
  | none => exact leads_throw _

/-- The result of a request, and the stage that it leaves. -/
theorem run_request (request : StoreM α) (s : Stage) :
    ((ActionM.request request).run.run s) =
      ((request.run.run s.store).1.mapError .store,
        { s with store := (request.run.run s.store).2 }) := by
  have hstore : (inStore request.run).run.run s =
      (.ok (request.run.run s.store).1, { s with store := (request.run.run s.store).2 }) := rfl
  rw [ActionM.request, requestAs, ExceptT.run_bind, StateT.run_bind, hstore]
  cases (request.run.run s.store).1 <;> rfl

/-- A request leads to where it takes the store at this stage. -/
theorem leads_request_of {request : StoreM α} {u : Tables}
    (hu : Relation.ReflTransGen r s.store.tables u)
    (hs : (request.run.run s.store).2 = { s.store with tables := u }) :
    Leads r (ActionM.request request) s := by
  rw [Leads, run_request]
  exact ⟨u, hu, hs⟩

/-- **What is looked up** stands in the tables, and nothing changes. -/
theorem run_request_ask {read : Tables → Except StoreError α} {a : α}
    (h : ((ActionM.request (Store.ask read)).run.run s).1 = .ok a) :
    read s.store.tables = .ok a ∧ ((ActionM.request (Store.ask read)).run.run s).2 = s := by
  rw [run_request] at h ⊢
  by_cases hopen : s.store.isOpen = true
  · rw [show (Store.ask read).run.run s.store = (read s.store.tables, s.store) from
      Store.run_ask hopen read] at h ⊢
    cases hread : read s.store.tables with
    | error e => rw [hread] at h; cases h
    | ok b => rw [hread] at h; exact ⟨congrArg Except.ok (Except.ok.inj h), rfl⟩
  · rw [show (Store.ask read).run.run s.store = (.error (.connectionLost .closed), s.store) from
      Store.run_ask_closed (by simpa using hopen) read] at h
    cases h

/-- A look-up leads nowhere, and what follows it may rely on what it has found. -/
theorem Leads.bindAsk {read : Tables → Except StoreError α} {next : α → ActionM β}
    (hnext : ∀ a, read s.store.tables = .ok a → Leads r (next a) s) :
    Leads r (ActionM.request (Store.ask read) >>= next) s := by
  refine (leads_request (stepwise_ask read)).bind fun a ha => ?_
  obtain ⟨hread, hs⟩ := run_request_ask ha
  rw [hs]
  exact hnext a hread

@[inherit_doc Leads.bindAsk]
theorem Leads.bindRequire {what : String} {read : Tables → Except StoreError (Option α)}
    {next : α → ActionM β} (hnext : ∀ a, read s.store.tables = .ok (some a) → Leads r (next a) s) :
    Leads r (require what (Store.ask read) >>= next) s := by
  rw [require, bind_assoc]
  refine .bindAsk fun found hfound => ?_
  cases found with
  | some a =>
    rw [pure_bind]
    exact hnext a hfound
  | none => exact (leads_throw _).bind fun _ h => by cases h

/-- A single change leads through the step that it is at this stage. -/
theorem leads_change {update : Tables → Except StoreError (α × Tables)}
    (h : ∀ a u, update s.store.tables = .ok (a, u) → r s.store.tables u) :
    Leads r (ActionM.request (Store.change update)) s := by
  rcases hrun : (Store.change update).run.run s.store with ⟨e | a, store⟩
  · exact leads_request_of .refl ((congrArg Prod.snd hrun).trans (Store.change_eq_error hrun))
  · obtain ⟨-, -, u, hu, hs⟩ := Store.change_eq_ok hrun
    exact leads_request_of (.single (h a u hu)) ((congrArg Prod.snd hrun).trans hs)

end ActionM

/-! ## Commands that only show something -/

open ActionM

/-- Whether a command only shows something. -/
def LibraryCommand.isQuery : LibraryCommand → Bool
  | .list _ => true
  | .search _ _ => true
  | .details _ => true
  | .listPersons => true
  | .members _ => true
  | .listGroups => true
  | _ => false

namespace Action

theorem leads_printTracks (asJson : Bool) (tracks : List Track) :
    Leads r (printTracks asJson tracks) s := by
  rw [printTracks]
  split
  · exact leads_print _
  · exact (leads_printAll _).bind fun _ _ => leads_print _

theorem leads_printNamed (entries : List (String × Int)) : Leads r (printNamed entries) s :=
  leads_printAll _

theorem leads_printGiven (label value : String) : Leads r (printGiven label value) s := by
  rw [printGiven]
  split
  · exact leads_pure ()
  · exact leads_print _

theorem leads_searchTracks (plan : Plan) (text : String) (asJson : Bool) :
    Leads r (searchTracks plan text asJson) s := by
  have hfind : ∀ s, Leads r (do
      let ids ← requestAs (fun e => .library (.store e)) (Store.search plan text)
      let found ← ids.mapM fun id => request (Store.track? id)
      printTracks asJson (found.filterMap id)) s := by
    intro s
    refine (leads_requestAs (stepwise_ask _)).bind fun ids _ => ?_
    refine (leads_mapM (fun id _ => leads_request (stepwise_ask _)) ids).bind fun found _ => ?_
    exact leads_printTracks _ _
  rw [searchTracks]
  split
  · exact (leads_remark _).bind fun _ _ => hfind _
  · exact hfind _

theorem leads_printPerson (name : String) : Leads r (printPerson name) s := by
  refine (leads_request (stepwise_ask _)).bind fun id _ => ?_
  split
  · refine (leads_request (stepwise_ask _)).bind fun person _ => ?_
    split
    · refine (leads_printGiven _ _).bind fun _ _ => (leads_printGiven _ _).bind fun _ _ =>
        (leads_printGiven _ _).bind fun _ _ => ?_
      refine (leads_request (stepwise_ask _)).bind fun groups _ => ?_
      split
      · exact leads_print _
      · exact leads_pure ()
    · exact leads_pure ()
  · exact leads_pure ()

theorem leads_printGroup (name : String) : Leads r (printGroup name) s := by
  have hmembers : ∀ id s, Leads r (do
      let members ← request (Store.members id)
      if members ≠ [] then print ("Members:   " ++ ", ".intercalate members)) s := by
    intro id s
    refine (leads_request (stepwise_ask _)).bind fun members _ => ?_
    split
    · exact leads_print _
    · exact leads_pure ()
  refine (leads_request (stepwise_ask _)).bind fun id _ => ?_
  split
  · refine (leads_request (stepwise_ask _)).bind fun group _ => ?_
    split
    · dsimp only
      split
      · exact (leads_print _).bind fun _ _ => hmembers _ _
      · exact hmembers _ _
    · exact leads_pure ()
  · exact leads_pure ()

theorem leads_printPerformer (p : Performer) : Leads r (printPerformer p) s := by
  refine (leads_print _).bind fun _ _ => ?_
  cases p.kind with
  | person => exact leads_printPerson _
  | group => exact leads_printGroup _
  | unknown => exact leads_pure ()

theorem leads_showTrack (id : Int) : Leads r (showTrack id) s := by
  refine (leads_require (stepwise_ask _)).bind fun track _ => ?_
  refine (leads_printAll _).bind fun _ _ => ?_
  refine (leads_request (stepwise_ask _)).bind fun references _ => ?_
  split
  · refine (leads_request (stepwise_ask _)).bind fun album _ => ?_
    dsimp only
    split
    on_goal 1 => refine (leads_print _).bind fun _ _ => ?_
    all_goals
      refine (leads_request (stepwise_ask _)).bind fun performer _ => ?_
      split
      · exact leads_printPerformer _
      · exact leads_pure ()
  · exact leads_pure ()

theorem leads_listMembers (group : String) : Leads r (listMembers group) s := by
  refine (leads_require (stepwise_ask _)).bind fun id _ => ?_
  refine (leads_request (stepwise_ask _)).bind fun members _ => ?_
  dsimp only
  split
  · exact (leads_print _).bind fun _ _ => leads_printAll _
  · exact leads_printAll _

end Action

/-- **A command that only shows something** leads nowhere, by whatever steps. -/
theorem leads_of_isQuery {c : LibraryCommand} (h : c.isQuery = true) {disk : Disk Content}
    {plan : Plan} {folder : Path} {ending : String} :
    Leads r (c.action disk plan folder ending) s := by
  cases c with
  | list asJson =>
    exact (leads_request (stepwise_ask _)).bind fun _ _ => Action.leads_printTracks _ _
  | search text asJson => exact Action.leads_searchTracks plan text asJson
  | details id => exact Action.leads_showTrack id
  | listPersons =>
    exact (leads_request (stepwise_ask _)).bind fun _ _ => Action.leads_printNamed _
  | members group => exact Action.leads_listMembers group
  | listGroups =>
    exact (leads_request (stepwise_ask _)).bind fun _ _ => Action.leads_printNamed _
  | _ => cases h

end Fonoteca
