import Fonoteca.CommandLine.Run
import Fonoteca.Proofs.Settings.Saving
import Mathlib.Data.List.Permutation

/-!
# Keeping the settings

The command that shows the settings fills in everything that they leave open, and can save what it
shows.  Settings that are saved in this way leave nothing open any more, so from then on they do not
depend on the user's folders, and saving them again writes the same document.

* `Disk.Keeps` says that a document is in the file that a path names, and can be written there
  again.
* `Disk.saved_of_saveSettings` : what is known of a disk on which settings were saved.
* `Disk.Keeps.saveSettings` : the document stays when the same settings are saved once more, even if
  that fails.
* `Settings.IsSettled` says that settings are in force as they are, `Settings.isSettled_inForce`
  that those which leave nothing open are settled.
* `Disk.Later` are the disks that come of showing the settings again and again, while anything else
  may happen that leaves the file alone.
* **`Disk.settings_settle`** : once they are saved, the settings are shown as they were saved.

A link can be in the way, as it is for `Disk.loadSettings_saveSettings`: `Disk.settings_unsettled`
has a disk on which saving cuts off the path to the settings.
-/

set_option autoImplicit false

namespace Fonoteca

open Text (Utf8.encode)

namespace Disk

variable {d d₁ d₂ d' : Disk Content} {p : Path} {s : Settings} {text : String}

/-! ## A document in a file -/

/-- The path to a file that is no link leads to it. -/
theorem read_of_node {α : Type} {d : Disk α} {c : α} (hd : d.IsGrounded)
    (h : d.node false p = .ok (.file c)) : d.read p = .ok c := by
  obtain ⟨place, hplace, hfile⟩ := node_eq_ok_iff.1 h
  have hthere := Entries.standing?_eq_file_iff.2 hfile
  have husable := isUsable_of_locate hplace
  rw [husable.locate] at hplace
  obtain ⟨before, last, links, folder, hsteps, hlast, hreach, -, hend⟩ :=
    exists_last_of_walk hplace (hd.standing?_start p) (by simp [hthere])
  rw [walk_last_step hlast (by simp)] at hend
  obtain rfl := Except.ok.inj hend
  refine read_eq_ok_iff.2 ⟨_, ?_, hthere⟩
  rw [husable.locate, hsteps, hreach.walk (by simp), walk_last_step hlast (by simp [hthere])]

/-- A document is in the file that a path names, and no link is in the way of the draft for the next
one. -/
structure Keeps (d : Disk Content) (p : Path) (text : String) : Prop where
  isGrounded : d.IsGrounded
  file : d.node false p = .ok (.file (.bytes (Utf8.encode text)))
  noLink : ∀ target, d.node false (draftPath p) ≠ .ok (.link target)

namespace Keeps

theorem read (h : d.Keeps p text) : d.read p = .ok (.bytes (Utf8.encode text)) :=
  read_of_node h.isGrounded h.file

theorem loadSettings (h : d.Keeps p text) (hs : s.render = some text) : d.loadSettings p = s :=
  loadSettings_document hs h.read

end Keeps

/-! ## Saving -/

/-- Settings are saved when their document was written as a draft and the draft was moved. -/
theorem exists_of_saveSettings (h : d.saveSettings s p = (.ok (), d')) : ∃ text d₁,
    s.render = some text ∧
    (d.makeParent p).2.write (draftPath p) (.bytes (Utf8.encode text)) = .ok d₁ ∧
    d₁.rename (draftPath p) p = .ok d' := by
  rw [saveSettings] at h
  split at h
  · cases h
  next hmake =>
  split at h
  · cases h
  next text htext =>
  rw [replaceFile] at h
  split at h
  · cases h
  next d₁ hwrite =>
  split at h
  · cases h
  next hrename =>
  cases h
  exact ⟨text, d₁, htext, hmake ▸ hwrite, hrename⟩

/-- The working folder stays when a draft takes the place of a file. -/
theorem Replaced.isGrounded {lead name : Bytes} {content : Content} {links : Nat}
    {place : List Bytes} (hr : Replaced d d₂ lead name content place)
    (h : Drafted d d₁ lead name content links place) (hd : d.IsGrounded) : d₂.IsGrounded := by
  have hd : d.root.standing? d.home = some .folder := hd
  rw [IsGrounded, hr.home, hr.standing, if_neg, if_neg, hd]
  · intro hhome
    exact h.free (hhome ▸ hd)
  · intro hhome
    exact hr.free (hhome ▸ hd)

/-- **Settings that were saved** are in the place of the file, and the path names it there, unless
it went along the link that it named before. -/
theorem saved_of_saveSettings (hd : d.IsGrounded)
    (hdraft : ∀ target, (d.makeParent p).2.node false (draftPath p) ≠ .ok (.link target))
    (h : d.saveSettings s p = (.ok (), d')) : ∃ text, s.render = some text ∧
      (∃ place, (d.makeParent p).2.locate false p = .ok place ∧
        d'.root.lookup place = some (.file (.bytes (Utf8.encode text)))) ∧
      (d'.Keeps p text ∨
        (∃ target, (d.makeParent p).2.node false p = .ok (.link target)) ∧
        d'.read p = .error .notFolder) := by
  obtain ⟨text, d₁, htext, hwrite, hrename⟩ := exists_of_saveSettings h
  have hd := isGrounded_makeParent hd p
  obtain ⟨lead, name, rfl, hlead, hname, hdot, hdots⟩ := exists_lead_of_rename hrename
  obtain ⟨links, place, h⟩ := exists_drafted hd hlead hname hdot hdots hdraft hwrite
  have hr := h.replaced_of_rename hlead hname hrename
  refine ⟨text, htext, ⟨_, h.locate_target hlead hname hr,
    Entries.standing?_eq_file_iff.1 hr.standing_target⟩, ?_⟩
  refine (h.node_of_rename hlead hname hr).imp_left fun hnode => ?_
  obtain ⟨-, hgone, -⟩ := h.read_of_rename hlead hname hrename
  exact ⟨hr.isGrounded h hd, hnode false, fun target => hgone (.link target)⟩

/-- Where a path leads to a file, there is no folder to be made. -/
theorem makeParent_of_read {c : Content} (hd : d.IsGrounded) (h : d.read p = .ok c) :
    (d.makeParent p).2 = d := by
  rcases d.makeParent_eq p with hsame | ⟨folder, hparent, hmade⟩
  · exact hsame
  rw [hmade]
  refine (makeFolders_cases hd folder).resolve_right ?_
  rintro ⟨⟨q, hnames, hstart, hmissing⟩, -⟩
  obtain ⟨lead, last, rfl, hlead, hlast, hstep⟩ := exists_lead_of_read hd h
  obtain ⟨_, _, _, _, _, hbreaks, hrest⟩ :=
    exists_breaksOff hlead hlast hstep hparent hnames hstart hmissing
  exact hbreaks.read_ne hrest h

namespace Keeps

/-- A failure to save leaves a disk that keeps settings as it is. -/
theorem eq_of_saveSettings (h : d.Keeps p text) {e : SettingsError}
    (hsave : d.saveSettings s p = (.error e, d')) : d' = d := by
  have hmade := makeParent_of_read h.isGrounded h.read
  rw [saveSettings] at hsave
  split at hsave
  · next heq =>
    cases hsave
    rwa [heq] at hmade
  next heq =>
  rw [heq] at hmade
  change _ = d at hmade
  subst hmade
  split at hsave
  · cases hsave
    rfl
  rw [replaceFile] at hsave
  split at hsave
  · cases hsave
    rfl
  next d₁ hwrite =>
  split at hsave
  · -- a draft that was written can be moved
    next hrename =>
    obtain ⟨lead, name, rfl, hlead, hname, hstep⟩ := exists_lead_of_read h.isGrounded h.read
    obtain ⟨links, place, hdrafted⟩ :=
      exists_drafted h.isGrounded hlead hname hstep.ne_dot hstep.ne_dots h.noLink hwrite
    obtain ⟨d₂, hd₂⟩ := hdrafted.exists_rename_eq_ok hlead hname hstep (.inl h.read)
    cases hrename.symm.trans hd₂
  · cases hsave

/-- **Kept settings stay** when they are saved once more, whether that fails or not. -/
theorem saveSettings (h : d.Keeps p text) (hs : s.render = some text) :
    (d.saveSettings s p).2.Keeps p text := by
  have hmade := makeParent_of_read h.isGrounded h.read
  rcases hsave : d.saveSettings s p with ⟨_ | ⟨⟨⟩⟩, d'⟩
  · exact h.eq_of_saveSettings hsave ▸ h
  · obtain ⟨text', htext, -, hkeeps⟩ :=
      saved_of_saveSettings h.isGrounded (hmade.symm ▸ h.noLink) hsave
    obtain rfl := Option.some.inj (hs.symm.trans htext)
    refine hkeeps.resolve_right ?_
    rintro ⟨⟨target, hlink⟩, -⟩
    rw [hmade, h.file] at hlink
    cases hlink

end Keeps
end Disk

/-! ## Showing -/

/-- A report shows a document, and says where it was saved if it was. -/
structure Report.Shows (r : Report) (text : String) (target : Path) (save : Bool) : Prop where
  out : r.out = if save = true ∧ r.failure = none then
    text ++ "\nSaved to " ++ target.display ++ "\n" else text
  succeeds : save = false → r.failure = none

namespace Settings

variable {s : Settings} {text : String} {target : Path} {d : Disk Content}

/-- Settings that are in force as they are, wherever the user's folders are. -/
def IsSettled (s : Settings) : Prop :=
  ∀ e, s.inForce e (s.databasePath e) = s

/-- Settings in force leave nothing open. -/
theorem isSettled_inForce (s : Settings) (e : Environment) (file : Path) :
    (s.inForce e file).IsSettled :=
  fun _ => rfl

theorem shows_report (hs : s.render = some text) (target : Path) (save : Bool)
    (d : Disk Content) : (s.report target save d).1.Shows text target save := by
  rw [report, hs]
  dsimp only
  cases save with
  | false => exact ⟨rfl, fun _ => rfl⟩
  | true =>
    rw [if_pos rfl]
    split <;> exact ⟨rfl, by simp⟩

theorem disk_report (hs : s.render = some text) (target : Path) (save : Bool)
    (d : Disk Content) :
    (s.report target save d).2 = if save then (d.saveSettings s target).2 else d := by
  rw [report, hs]
  dsimp only
  cases save with
  | false => rfl
  | true =>
    rw [if_pos rfl, if_pos rfl]
    split <;> next heq => rw [heq]

/-- Settings were saved if showing and saving them did not fail. -/
theorem exists_of_report {r : Report} {d' : Disk Content}
    (h : s.report target true d = (r, d')) (hsaved : r.failure = none) :
    ∃ text, s.render = some text ∧ r.out = text ++ "\nSaved to " ++ target.display ++ "\n" ∧
      d.saveSettings s target = (.ok (), d') := by
  rw [report] at h
  split at h
  · cases h
    cases hsaved
  next text htext =>
  rw [if_pos rfl] at h
  split at h
  · next heq =>
    cases h
    exact ⟨text, htext, rfl, heq⟩
  · cases h
    cases hsaved

end Settings

namespace Disk

variable {d d' : Disk Content} {p : Path} {s : Settings} {text : String} {e : Environment}

/-- **Settled settings are shown as they are kept**, and stay. -/
theorem Keeps.shown (h : d.Keeps p text) (hsettled : s.IsSettled) (hs : s.render = some text)
    (hp : e.settingsPath = p) (save : Bool) :
    (Invocation.run { command := .settings save } e d).1.Shows text p save ∧
    (Invocation.run { command := .settings save } e d).2.Keeps p text := by
  subst hp
  have hrun : Invocation.run { command := .settings save } e d =
      s.report e.settingsPath save d := by
    rw [Invocation.run]
    dsimp only
    rw [h.loadSettings hs, Option.getD_none, hsettled e]
  rw [hrun, Settings.disk_report hs]
  refine ⟨Settings.shows_report hs _ save d, ?_⟩
  split
  · exact h.saveSettings hs
  · exact h

/-- What a disk becomes when the settings in a file are shown, and perhaps saved again, any number
of times, without a word about the file of the library and wherever the user's folders are, while
anything else may happen that leaves the file as it is. -/
inductive Later (p : Path) (text : String) (d : Disk Content) : Disk Content → Prop
  | refl : Later p text d d
  | shown {d₁ : Disk Content} (h : Later p text d d₁) (e : Environment) (save : Bool)
      (hp : e.settingsPath = p) :
      Later p text d (Invocation.run { command := .settings save } e d₁).2
  | other {d₁ d₂ : Disk Content} (h : Later p text d d₁) (hkeeps : d₂.Keeps p text) :
      Later p text d d₂

theorem Later.keeps (h : Later p text d d') (hkeeps : d.Keeps p text) (hsettled : s.IsSettled)
    (hs : s.render = some text) : d'.Keeps p text := by
  induction h with
  | refl => exact hkeeps
  | shown _ e save hp ih => exact (ih.shown hsettled hs hp save).2
  | other _ hother => exact hother

/-- **Saved settings settle.**  When the command that shows the settings saves them, whatever the
settings were before and wherever the user's folders and the library are, then the file that the
path names has the text that was shown.  From then on the command shows this text, unless a link
that the path named was on the way to its own folder; then the path is cut off, and what is loaded
are the settings that the program starts with. -/
theorem settings_settle (hd : d.IsGrounded) (e : Environment) (database : Option Path)
    (hdraft : ∀ target, (d.makeParent e.settingsPath).2.node false (draftPath e.settingsPath) ≠
      .ok (.link target)) {r : Report}
    (h : Invocation.run { database, command := .settings true } e d = (r, d'))
    (hsaved : r.failure = none) :
    ∃ text, r.out = text ++ "\nSaved to " ++ e.settingsPath.display ++ "\n" ∧
      ((d.loadSettings e.settingsPath).inForce e
        (database.getD ((d.loadSettings e.settingsPath).databasePath e))).render = some text ∧
      (∃ place, (d.makeParent e.settingsPath).2.locate false e.settingsPath = .ok place ∧
        d'.root.lookup place = some (.file (.bytes (Utf8.encode text)))) ∧
      (d'.Keeps e.settingsPath text ∧
        (∀ d₁, Later e.settingsPath text d' d₁ → ∀ e' save, e'.settingsPath = e.settingsPath →
          (Invocation.run { command := .settings save } e' d₁).1.Shows text e.settingsPath save) ∨
      (∃ target, (d.makeParent e.settingsPath).2.node false e.settingsPath = .ok (.link target)) ∧
        d'.read e.settingsPath = .error .notFolder ∧ d'.loadSettings e.settingsPath = {}) := by
  rw [Invocation.run] at h
  dsimp only at h
  generalize hs : (d.loadSettings e.settingsPath).inForce e _ = s at h ⊢
  have hsettled : s.IsSettled := hs ▸ Settings.isSettled_inForce _ _ _
  obtain ⟨text, htext, hout, hsave⟩ := Settings.exists_of_report h hsaved
  obtain ⟨text', htext', hplace, hend⟩ := saved_of_saveSettings hd hdraft hsave
  obtain rfl := Option.some.inj (htext.symm.trans htext')
  refine ⟨text, hout, htext, hplace, hend.imp (fun hkeeps => ⟨hkeeps, ?_⟩) ?_⟩
  · intro d₁ hlater e' save hp
    exact ((hlater.keeps hkeeps hsettled htext).shown hsettled htext hp save).1
  · rintro ⟨hlink, hread⟩
    refine ⟨hlink, hread, ?_⟩
    rw [loadSettings, hread]

/-- The settings are shown and saved, with a library in a file `foo.db`. -/
def fooSaving : Invocation :=
  { database := some (.ofString "foo.db"), command := .settings true }

/-- A user whose folder for settings is not in the home. -/
def someUser : Environment :=
  { home := .ofString "/h", configHome := some (.ofString "/c") }

/-- The document that such a user saves at first. -/
def someDocument : String :=
  "[library]\nroot = \"/h/Music\"\nextension = \".mp3\"\n\n[database]\npath = \"foo.db\"\n"

/-- The folders for the settings can be made, and any settings be saved in them. -/
theorem saveSettings_someUser (hs : s.render = some text) :
    ∃ d', (desk .nil).saveSettings s someUser.settingsPath = (.ok (), d') := by
  have hmade : ((desk .nil).makeParent someUser.settingsPath).1 = .ok () := by cbv
  have hreplaced : (((desk .nil).makeParent someUser.settingsPath).2.replaceFile
      someUser.settingsPath text).1 = .ok () := by
    -- whatever is written, it is written and renamed in the same way
    rw [replaceFile]
    generalize Content.bytes (Utf8.encode text) = content
    cbv
  rw [saveSettings]
  rcases hmake : (desk .nil).makeParent someUser.settingsPath with ⟨r, d⟩
  rw [hmake] at hmade hreplaced
  obtain rfl : r = .ok () := hmade
  dsimp only
  rw [hs]
  exact ⟨_, Prod.ext hreplaced rfl⟩

/-- The folders are made for the settings, which stay when the user moves. -/
theorem settings_settle_moved : ∃ r d',
    fooSaving.run someUser (desk .nil) = (r, d') ∧ r.failure = none ∧
    ∀ d₁, Later someUser.settingsPath someDocument d' d₁ → ∀ save,
      (Invocation.run { command := .settings save }
        { someUser with home := .ofString "/g", cacheHome := some (.ofString "/k") } d₁).1.Shows
        someDocument someUser.settingsPath save := by
  have hdraft : ((desk .nil).makeParent someUser.settingsPath).2.node false
      (draftPath someUser.settingsPath) = .error .notFound := by cbv
  have hnode : ((desk .nil).makeParent someUser.settingsPath).2.node false
      someUser.settingsPath = .error .notFound := by cbv
  have hbefore : (desk .nil).read someUser.settingsPath = .error .notFound := by cbv
  have hdocument : (Settings.inForce {} someUser (.ofString "foo.db")).render =
      some someDocument := by decide +kernel
  have hsaved : (fooSaving.run someUser (desk .nil)).1.failure = none := by
    obtain ⟨d', hsave⟩ := saveSettings_someUser hdocument
    rw [Invocation.run, loadSettings, hbefore]
    dsimp only [fooSaving]
    rw [Option.getD_some, Settings.report, hdocument]
    dsimp only
    rw [if_pos rfl, hsave]
  obtain ⟨text, -, htext, -, hend⟩ := settings_settle (isGrounded_desk .nil) someUser
    (some (.ofString "foo.db")) (by rw [hdraft]; simp) rfl hsaved
  rw [loadSettings, hbefore, Option.getD_some] at htext
  obtain rfl := Option.some.inj (htext.symm.trans hdocument)
  refine ⟨_, _, rfl, hsaved, fun d₁ hlater save => ?_⟩
  rcases hend with ⟨-, hshows⟩ | ⟨⟨target, hlink⟩, -⟩
  · exact hshows d₁ hlater _ save rfl
  · rw [hnode] at hlink
    cases hlink

/-- A user whose home is where relative paths start. -/
def linkedUser : Environment :=
  { home := .ofString "home" }

/-- A disk on which the folder for the settings is a link to `config.toml` beside it. -/
def linkedHome (config : Node Content) (entries : Entries Content) : Disk Content :=
  desk (.cons (Utf8.encode "home") (.folder (.cons (Utf8.encode ".config") (.folder
    (.cons (Utf8.encode "config.toml") config
      (.cons (Utf8.encode "rolas") (.link (.ofString "config.toml")) entries))) .nil)) .nil)

/-- There `config.toml` is a link to the folder in which it stands. -/
def linkedInCircle : Disk Content :=
  linkedHome (.link (.ofString ".")) .nil

theorem makeParent_linkedInCircle :
    linkedInCircle.makeParent linkedUser.settingsPath = (.ok (), linkedInCircle) := by
  cbv

theorem saveSettings_linkedInCircle (hs : s.render = some text) :
    linkedInCircle.saveSettings s linkedUser.settingsPath =
      (.ok (), linkedHome (.file (.bytes (Utf8.encode text))) .nil) := by
  have hwrite : ∀ content, linkedInCircle.write (draftPath linkedUser.settingsPath) content =
      .ok (linkedHome (.link (.ofString "."))
        (.cons (Utf8.encode "config.toml.tmp") (.file content) .nil)) := by
    intro content
    cbv
  have hrename : ∀ content, (linkedHome (.link (.ofString "."))
      (.cons (Utf8.encode "config.toml.tmp") (.file content) .nil)).rename
      (draftPath linkedUser.settingsPath) linkedUser.settingsPath =
      .ok (linkedHome (.file content) .nil) := by
    intro content
    cbv
  rw [saveSettings, makeParent_linkedInCircle, hs]
  dsimp only
  rw [replaceFile, hwrite]
  dsimp only
  rw [hrename]

/-- What is shown there, with the library in some file. -/
def linkedDocument (file : String) : String :=
  "[library]\nroot = \"home/Music\"\nextension = \".mp3\"\n\n[database]\npath = \"" ++ file ++
    "\"\n"

/-- **Saved settings are not always shown again**: the new file takes the place of the link through
which it was to be found, and the library is where it would be without settings. -/
theorem settings_unsettled : linkedInCircle.IsGrounded ∧
    (∀ target, (linkedInCircle.makeParent linkedUser.settingsPath).2.node false
      (draftPath linkedUser.settingsPath) ≠ .ok (.link target)) ∧
    ∃ d', fooSaving.run linkedUser linkedInCircle =
      ({ out := linkedDocument "foo.db" ++ "\nSaved to " ++ linkedUser.settingsPath.display ++
        "\n" }, d') ∧
    (Invocation.run { command := .settings false } linkedUser d').1.out ≠
      linkedDocument "foo.db" := by
  have hdraft : linkedInCircle.node false (draftPath linkedUser.settingsPath) =
      .error .notFound := by cbv
  have hbefore : linkedInCircle.read linkedUser.settingsPath = .error .isFolder := by cbv
  have hafter : ∀ content, (linkedHome (.file content) .nil).read linkedUser.settingsPath =
      .error .notFolder := by
    intro content
    cbv
  have hsaved : (Settings.inForce {} linkedUser (.ofString "foo.db")).render =
      some (linkedDocument "foo.db") := by decide +kernel
  have hshown : (Settings.inForce {} linkedUser linkedUser.databasePath).render =
      some (linkedDocument "home/.cache/rolas/rolas.db") := by decide +kernel
  have hload : linkedInCircle.loadSettings linkedUser.settingsPath = {} := by
    rw [loadSettings, hbefore]
  refine ⟨isGrounded_desk _, by rw [makeParent_linkedInCircle, hdraft]; simp,
    linkedHome (.file (.bytes (Utf8.encode (linkedDocument "foo.db")))) .nil, ?_, ?_⟩
  · rw [Invocation.run, hload]
    dsimp only [fooSaving]
    rw [Option.getD_some, Settings.report, hsaved]
    dsimp only
    rw [if_pos rfl, saveSettings_linkedInCircle hsaved]
  · rw [Invocation.run, loadSettings, hafter]
    dsimp only
    rw [Option.getD_none]
    have hdatabase : Settings.databasePath {} linkedUser = linkedUser.databasePath := rfl
    rw [hdatabase, (Settings.shows_report hshown _ false _).out]
    decide +kernel

end Disk
end Fonoteca
