import Fonoteca.Proofs.Disk.Growth
import Fonoteca.Proofs.Disk.Replacing
import Fonoteca.Proofs.Settings.RoundTrip
import Fonoteca.Settings.File

/-!
# Saved settings

Settings are saved by writing a draft beside the file and moving it over the file, after the folder
of the file was made.  Whatever goes wrong on the way, the file is the old one or the new one.

* `Disk.Drafted` and `Disk.Replaced` say what is known of a disk after each of the two steps.
* `Disk.Drafted.node_of_rename` : once the draft is moved, it is what the path of the file names.
* `Disk.Drafted.exists_rename_eq_ok` : a draft can be moved wherever a file can be read, so the move
  only fails where there was nothing to lose.
* **`Disk.loadSettings_saveSettings`** : settings that were saved are loaded again, and where saving
  fails the settings are those of before.

There are two exceptions, and `Disk.exists_loadSettings_ne` has a disk for each.  The move replaces
a link as it would a file, and a path can go along that very link to its own folder; then it leads
nowhere.  And making the folder of the file can complete a path that leaves a missing folder by
`..`, so that it leads to a file where it led to none.
-/

set_option autoImplicit false

namespace Fonoteca

open Text (Utf8.encode)

namespace Disk

variable {d d₁ d₂ d' : Disk Content} {p : Path} {lead name : Bytes} {content : Content}

/-! ## The draft -/

/-- The name of the draft beside a file. -/
def draftName (name : Bytes) : Bytes :=
  Path.withEnd name "toml.tmp"

theorem encode_ending : Utf8.encode "toml.tmp" =
    [0x74, 0x6F, 0x6D, 0x6C] ++ Path.dot :: [0x74, 0x6D, 0x70] := by
  decide +kernel

theorem draftName_ne (name : Bytes) : draftName name ≠ name :=
  Path.withEnd_ne encode_ending (by decide) name

theorem isName_draftName (h : Path.IsName name) : Path.IsName (draftName name) :=
  Path.isName_withEnd h (by rw [encode_ending]; decide)

/-- Where the folder of a path is reached, its last name is looked for there. -/
theorem locate_of_reaches {links : Nat} {place : List Bytes} (hlead : Path.IsLead lead)
    (hname : Path.IsName name) (husable : IsUsable ⟨lead ++ name⟩)
    (h : Reaches d.root maxLinks (d.start ⟨lead ++ name⟩) (Path.leadSteps lead) links place)
    (follow : Bool) :
    d.locate follow ⟨lead ++ name⟩ = walk d.root follow links place [name] := by
  rw [husable.locate, Path.steps_lead hlead hname, h.walk (by simp)]

/-- What is known of a draft that was written: it stands in the folder of the file, and everything
else is as before. -/
structure Drafted (d d' : Disk Content) (lead name : Bytes) (content : Content) (links : Nat)
    (place : List Bytes) : Prop where
  draft : draftPath ⟨lead ++ name⟩ = ⟨lead ++ draftName name⟩
  isUsable : IsUsable (draftPath ⟨lead ++ name⟩)
  isStep : IsStep (draftName name)
  reaches : Reaches d.root maxLinks (d.start ⟨lead ++ name⟩) (Path.leadSteps lead) links place
  folder : d.root.standing? place = some .folder
  free : d.root.standing? (place ++ [draftName name]) ≠ some .folder
  noLink : ∀ target, d.root.standing? (place ++ [draftName name]) ≠ some (.link target)
  home : d'.home = d.home
  standing : ∀ q, d'.root.standing? q =
    if q = place ++ [draftName name] then some (.file content) else d.root.standing? q

theorem start_lead (d : Disk Content) {name' : Bytes} (hname : Path.IsName name)
    (hname' : Path.IsName name') : d.start ⟨lead ++ name⟩ = d.start ⟨lead ++ name'⟩ := by
  rw [start, start, Path.isAbsolute_lead hname, Path.isAbsolute_lead hname']

theorem exists_drafted (hd : d.IsGrounded) (hlead : Path.IsLead lead) (hname : Path.IsName name)
    (hdot : name ≠ [Path.dot]) (hdots : name ≠ [Path.dot, Path.dot])
    (hlink : ∀ target, d.node false (draftPath ⟨lead ++ name⟩) ≠ .ok (.link target))
    (h : d.write (draftPath ⟨lead ++ name⟩) content = .ok d') :
    ∃ links place, Drafted d d' lead name content links place := by
  obtain ⟨q, hlocate, hq, rfl⟩ := exists_of_write h
  have husable := isUsable_of_locate hlocate
  rw [husable.locate] at hlocate
  obtain ⟨before, last, links, place, hsteps, hlast, hreach, hplace, hend⟩ :=
    exists_last_of_walk hlocate (hd.standing?_start _) hq
  have hdraft : draftPath ⟨lead ++ name⟩ = ⟨lead ++ draftName name⟩ := by
    refine (Path.withExtension_lead hlead hname hdot hdots _).resolve_right fun hup => ?_
    have hup : draftPath ⟨lead ++ name⟩ = ⟨lead ++ [Path.dot, Path.dot]⟩ := hup
    rw [hup, Path.steps_lead hlead ⟨by decide, by decide⟩] at hsteps
    exact hlast.ne_dots (List.cons.inj (List.append_inj' hsteps rfl).2).1.symm
  have hname' := isName_draftName hname
  rw [hdraft, Path.steps_lead hlead hname'] at hsteps
  obtain ⟨rfl, hcons⟩ := List.append_inj' hsteps rfl
  obtain rfl := (List.cons.inj hcons).1
  rw [hdraft, start_lead d hname' hname] at hreach
  have hlocate' : d.locate false (draftPath ⟨lead ++ name⟩) =
      .ok (place ++ [draftName name]) := by
    rw [husable.locate, hdraft, Path.steps_lead hlead hname', start_lead d hname' hname,
      hreach.walk (by simp), walk_last_step hlast (by simp)]
  have hnoLink : ∀ target, d.root.standing? (place ++ [draftName name]) ≠ some (.link target) :=
    fun target hthere => hlink target
      (node_eq_ok_iff.2 ⟨_, hlocate', Entries.standing?_eq_link_iff.1 hthere⟩)
  rw [walk_last_step hlast fun _ => hnoLink] at hend
  obtain rfl := Except.ok.inj hend
  exact ⟨links, place, hdraft, husable, hlast, hreach, hplace, hq, hnoLink, rfl,
    standing?_write hplace hq⟩

namespace Drafted

variable {links : Nat} {place : List Bytes}
  (h : Drafted d d₁ lead name content links place)

include h

theorem start (p : Path) : d₁.start p = d.start p := by
  rw [Disk.start, Disk.start, h.home]

theorem standing_place : d₁.root.standing? place = some .folder := by
  rw [h.standing, if_neg (by simp), h.folder]

theorem reaches_after :
    Reaches d₁.root maxLinks (d₁.start ⟨lead ++ name⟩) (Path.leadSteps lead) links place := by
  rw [h.start]
  refine h.reaches.mono (fun q hq => ?_) fun q target hq => ?_
  · rw [h.standing, if_neg, hq]
    rintro rfl
    exact h.free hq
  · rw [h.standing, if_neg, hq]
    rintro rfl
    exact h.noLink target hq

/-- The draft is looked for in the folder of the file, on any disk on which that is reached. -/
theorem locate_draft (hlead : Path.IsLead lead) (hname : Path.IsName name)
    (hreach : Reaches d₂.root maxLinks (d₂.start ⟨lead ++ name⟩) (Path.leadSteps lead) links
      place) :
    d₂.locate false (draftPath ⟨lead ++ name⟩) = .ok (place ++ [draftName name]) := by
  have hname' := isName_draftName hname
  have husable := h.isUsable
  rw [h.draft] at husable ⊢
  rw [start_lead d₂ hname hname'] at hreach
  rw [locate_of_reaches hlead hname' husable hreach, walk_last_step h.isStep (by simp)]

end Drafted

/-! ## The draft in the place of the file -/

/-- What is known of a file that a draft took the place of: the draft is gone, and everything else
is as before. -/
structure Replaced (d d' : Disk Content) (lead name : Bytes) (content : Content)
    (place : List Bytes) : Prop where
  isUsable : IsUsable ⟨lead ++ name⟩
  isStep : IsStep name
  free : d.root.standing? (place ++ [name]) ≠ some .folder
  home : d'.home = d.home
  standing : ∀ q, d'.root.standing? q =
    if q = place ++ [name] then some (.file content)
    else if q = place ++ [draftName name] then none
    else d.root.standing? q

namespace Replaced

variable {links : Nat} {place : List Bytes}

theorem start (hr : Replaced d d₂ lead name content place) (p : Path) :
    d₂.start p = d.start p := by
  rw [Disk.start, Disk.start, hr.home]

theorem standing_target (hr : Replaced d d₂ lead name content place) :
    d₂.root.standing? (place ++ [name]) = some (.file content) := by
  rw [hr.standing, if_pos rfl]

theorem standing_draft (hr : Replaced d d₂ lead name content place) :
    d₂.root.standing? (place ++ [draftName name]) = none := by
  rw [hr.standing, if_neg (by simpa using draftName_ne name), if_pos rfl]

/-- The folder of the file is reached as before, unless the way goes along the link that was in the
place of the file. -/
theorem reaches_or (hr : Replaced d d₂ lead name content place)
    (h : Drafted d d₁ lead name content links place) :
    Reaches d₂.root maxLinks (d₂.start ⟨lead ++ name⟩) (Path.leadSteps lead) links place ∨
      (∃ target, d.root.standing? (place ++ [name]) = some (.link target)) ∧
      ∀ follow rest, rest ≠ [] → walk d₂.root follow maxLinks (d₂.start ⟨lead ++ name⟩)
        (Path.leadSteps lead ++ rest) = .error .notFolder := by
  rw [hr.start]
  refine h.reaches.replace hr.free hr.standing_target (fun q hq hthere => ?_)
    fun q target hq hthere => ?_
  · rw [hr.standing, if_neg hq, if_neg, hthere]
    rintro rfl
    exact h.free hthere
  · rw [hr.standing, if_neg hq, if_neg, hthere]
    rintro rfl
    exact h.noLink target hthere

end Replaced

/-- Where a path leads to a file, no folder is in the place of this file. -/
theorem free_of_read {links : Nat} {place : List Bytes} {c : Content} (hlead : Path.IsLead lead)
    (hname : Path.IsName name) (hstep : IsStep name)
    (hreach : Reaches d.root maxLinks (d.start ⟨lead ++ name⟩) (Path.leadSteps lead) links place)
    (hread : d.read ⟨lead ++ name⟩ = .ok c) :
    IsUsable ⟨lead ++ name⟩ ∧ d.root.standing? (place ++ [name]) ≠ some .folder := by
  obtain ⟨q, hq, hfile⟩ := read_eq_ok_iff.1 hread
  have husable := isUsable_of_locate hq
  refine ⟨husable, fun hfolder => ?_⟩
  rw [locate_of_reaches hlead hname husable hreach, walk_last_step hstep (by simp [hfolder])] at hq
  rw [← Except.ok.inj hq, hfolder] at hfile
  cases hfile

namespace Drafted

variable {links : Nat} {place : List Bytes}
  (h : Drafted d d₁ lead name content links place)

include h

theorem replaced_of_rename (hlead : Path.IsLead lead) (hname : Path.IsName name)
    (hr : d₁.rename (draftPath ⟨lead ++ name⟩) ⟨lead ++ name⟩ = .ok d₂) :
    Replaced d d₂ lead name content place := by
  obtain ⟨q, r, n, hsource, htarget, -, -, hn, hfree, hd₂⟩ := Disk.exists_of_rename hr
  rw [h.locate_draft hlead hname h.reaches_after] at hsource
  obtain rfl := Except.ok.inj hsource
  rw [Path.withoutSlashes_lead hname] at htarget
  have husable := isUsable_of_locate htarget
  rw [locate_of_reaches hlead hname husable h.reaches_after] at htarget
  obtain ⟨before, last, _, _, hsteps, hstep, -⟩ :=
    exists_last_of_walk htarget h.standing_place hfree
  obtain rfl : name = last := by simpa using congrArg List.getLast? hsteps
  rw [walk_last_step hstep (by simp)] at htarget
  obtain rfl := Except.ok.inj htarget
  have hne := draftName_ne name
  have hdraft := h.standing (place ++ [draftName name])
  rw [if_pos rfl] at hdraft
  obtain rfl : n = .file content := by
    rw [Entries.standing?_eq_file_iff, hn] at hdraft
    exact Option.some.inj hdraft
  have hfree' : d.root.standing? (place ++ [name]) ≠ some .folder := by
    rwa [h.standing, if_neg (by simpa using hne.symm)] at hfree
  obtain rfl := hd₂ (by simpa using hne)
  refine ⟨husable, hstep, hfree', h.home, fun q => ?_⟩
  refine (standing?_rename h.standing_place hdraft hne hfree q).trans ?_
  rw [h.standing]
  split
  · rfl
  split <;> rfl

/-- The file is looked for beside its draft. -/
theorem locate_target (hlead : Path.IsLead lead) (hname : Path.IsName name)
    (hr : Replaced d d₂ lead name content place) :
    d.locate false ⟨lead ++ name⟩ = .ok (place ++ [name]) := by
  rw [locate_of_reaches hlead hname hr.isUsable h.reaches, walk_last_step hr.isStep (by simp)]

/-- **A draft in the place of a file is what the path names**, unless the path went along the link
that was there; then it ends at the new file. -/
theorem node_of_rename (hlead : Path.IsLead lead) (hname : Path.IsName name)
    (hr : Replaced d d₂ lead name content place) :
    (∀ follow, d₂.node follow ⟨lead ++ name⟩ = .ok (.file content)) ∨
      (∃ target, d.node false ⟨lead ++ name⟩ = .ok (.link target)) ∧
      d₂.read ⟨lead ++ name⟩ = .error .notFolder := by
  rcases hr.reaches_or h with hreach | ⟨⟨target, hlink⟩, hend⟩
  · refine .inl fun follow => node_eq_ok_iff.2 ⟨place ++ [name], ?_, ?_⟩
    · rw [locate_of_reaches hlead hname hr.isUsable hreach,
        walk_last_step hr.isStep (by simp [hr.standing_target])]
    · exact Entries.standing?_eq_file_iff.1 hr.standing_target
  · refine .inr ⟨⟨target, node_eq_ok_iff.2 ⟨_, h.locate_target hlead hname hr, ?_⟩⟩, ?_⟩
    · exact Entries.standing?_eq_link_iff.1 hlink
    · rw [read, node, hr.isUsable.locate, Path.steps_lead hlead hname, hend _ _ (by simp)]
      rfl

/-- The draft is gone once it has taken the place of the file, and the path leads to it there unless
it was cut off. -/
theorem read_of_rename (hlead : Path.IsLead lead) (hname : Path.IsName name)
    (hr : d₁.rename (draftPath ⟨lead ++ name⟩) ⟨lead ++ name⟩ = .ok d₂) :
    (∃ q, d.locate false (draftPath ⟨lead ++ name⟩) = .ok q ∧ d₂.root.lookup q = none) ∧
    (∀ n, d₂.node false (draftPath ⟨lead ++ name⟩) ≠ .ok n) ∧
    (d₂.read ⟨lead ++ name⟩ = .ok content ∨
      (∃ target, d.node false ⟨lead ++ name⟩ = .ok (.link target)) ∧
      d₂.read ⟨lead ++ name⟩ = .error .notFolder) := by
  have hr := h.replaced_of_rename hlead hname hr
  have hgone := Entries.standing?_eq_none_iff.1 hr.standing_draft
  refine ⟨⟨_, h.locate_draft hlead hname h.reaches, hgone⟩, fun n hn => ?_, ?_⟩
  · obtain ⟨q, hq, hlookup⟩ := node_eq_ok_iff.1 hn
    rcases hr.reaches_or h with hreach | ⟨-, hend⟩
    · obtain rfl := Except.ok.inj ((h.locate_draft hlead hname hreach).symm.trans hq)
      cases hgone.symm.trans hlookup
    · have hname' := isName_draftName hname
      rw [h.isUsable.locate, h.draft, Path.steps_lead hlead hname', start_lead d₂ hname' hname,
        hend _ _ (by simp)] at hq
      cases hq
  · refine (h.node_of_rename hlead hname hr).imp_left fun hnode => ?_
    rw [read, hnode]
    rfl

/-- Where a path leads to a file, the draft can take its place. -/
theorem exists_rename_eq_ok (hlead : Path.IsLead lead) (hname : Path.IsName name)
    (hstep : IsStep name) {c : Content}
    (hread : d.read ⟨lead ++ name⟩ = .ok c ∨ d₁.read ⟨lead ++ name⟩ = .ok c) :
    ∃ d₂, d₁.rename (draftPath ⟨lead ++ name⟩) ⟨lead ++ name⟩ = .ok d₂ := by
  have hsame : d₁.root.standing? (place ++ [name]) = d.root.standing? (place ++ [name]) := by
    rw [h.standing, if_neg (by simpa using (draftName_ne name).symm)]
  obtain ⟨husable, hfree⟩ : IsUsable ⟨lead ++ name⟩ ∧
      d₁.root.standing? (place ++ [name]) ≠ some .folder :=
    hread.elim (fun hread => hsame ▸ free_of_read hlead hname hstep h.reaches hread)
      (free_of_read hlead hname hstep h.reaches_after)
  refine Disk.exists_rename_eq_ok (h.locate_draft hlead hname h.reaches_after) ?_ ?_ ?_ ?_ hfree
  · rw [Path.withoutSlashes_lead hname, locate_of_reaches hlead hname husable h.reaches_after,
      walk_last_step hstep (by simp)]
  · rw [Path.endsInDots_lead hlead hname]
    simp [hstep.ne_dot, hstep.ne_dots]
  · exact Path.endsInSlash_lead hname lead
  · rw [h.standing, if_pos rfl]
    simp

end Drafted

/-! ## Settings -/

/-- Paths that lead to the same file, if to any, lead to the same settings. -/
theorem loadSettings_congr (h : ∀ c, d'.read p = .ok c ↔ d.read p = .ok c) :
    d'.loadSettings p = d.loadSettings p := by
  cases hread : d.read p with
  | ok c => rw [loadSettings, loadSettings, hread, (h c).2 hread]
  | error e =>
    cases hread' : d'.read p with
    | ok c => rw [(h c).1 hread'] at hread; cases hread
    | error e' => rw [loadSettings, loadSettings, hread, hread']

theorem loadSettings_document {s : Settings} {text : String} (htext : s.render = some text)
    (h : d.read p = .ok (.bytes (Utf8.encode text))) : d.loadSettings p = s := by
  rw [loadSettings, h]
  dsimp only
  rw [Text.Utf8.decode?_eq_some_iff.2 rfl, Option.bind_some, Settings.parse?_of_render htext]
  rfl

theorem makeParent_eq (d : Disk Content) (p : Path) :
    (d.makeParent p).2 = d ∨ ∃ folder, p.parent? = some folder ∧
      (d.makeParent p).2 = (d.makeFolders folder).2 := by
  rw [makeParent]
  cases p.parent? with
  | none => exact .inl rfl
  | some folder =>
    refine .inr ⟨folder, rfl, ?_⟩
    dsimp only
    split <;> simp [*]

theorem isGrounded_makeParent (hd : d.IsGrounded) (p : Path) : (d.makeParent p).2.IsGrounded := by
  rcases d.makeParent_eq p with hsame | ⟨folder, -, hmade⟩
  · rwa [hsame]
  · rw [hmade]
    exact (grown_makeFolders hd folder).isGrounded hd

/-- Making the folder of a file does not change which settings its path leads to. -/
theorem loadSettings_makeParent (hd : d.IsGrounded) (hleaves : d.LeavesFolders p) :
    (d.makeParent p).2.loadSettings p = d.loadSettings p := by
  rcases d.makeParent_eq p with hsame | ⟨folder, hparent, hmade⟩
  · rw [hsame]
  · rw [hmade]
    exact loadSettings_congr (read_makeFolders hd hleaves hparent)

/-- What replacing a file comes to: the draft takes its place, or else the path leads to the same
settings as before. -/
theorem replaceFile_cases (hd : d.IsGrounded)
    (hdraft : ∀ target, d.node false (draftPath p) ≠ .ok (.link target)) (text : String) :
    (∃ d', d.replaceFile p text = (.ok (), d') ∧
      (∃ q, d.locate false (draftPath p) = .ok q ∧ d'.root.lookup q = none) ∧
      (∀ n, d'.node false (draftPath p) ≠ .ok n) ∧
      (d'.read p = .ok (.bytes (Utf8.encode text)) ∨
        (∃ target, d.node false p = .ok (.link target)) ∧ d'.read p = .error .notFolder)) ∨
    ∃ e d', d.replaceFile p text = (.error e, d') ∧ d'.loadSettings p = d.loadSettings p := by
  rw [replaceFile]
  split
  · exact .inr ⟨_, d, rfl, rfl⟩
  next d₁ hwrite =>
  split
  · -- the draft stays, and no file was there to be replaced
    next e hrename =>
    refine .inr ⟨_, d₁, rfl, loadSettings_congr fun c => ?_⟩
    have hnone : ∀ c, d.read p = .ok c ∨ d₁.read p = .ok c → False := by
      intro c hread
      obtain ⟨lead, name, rfl, hlead, hname, hstep⟩ : ∃ lead name, p = ⟨lead ++ name⟩ ∧
          Path.IsLead lead ∧ Path.IsName name ∧ IsStep name :=
        hread.elim (exists_lead_of_read hd) (exists_lead_of_read (hd.write hwrite))
      obtain ⟨links, place, h⟩ :=
        exists_drafted hd hlead hname hstep.ne_dot hstep.ne_dots hdraft hwrite
      obtain ⟨d₂, hd₂⟩ := h.exists_rename_eq_ok hlead hname hstep hread
      cases hrename.symm.trans hd₂
    exact iff_of_false (fun h => hnone c (.inr h)) fun h => hnone c (.inl h)
  · next d' hrename =>
    obtain ⟨lead, name, rfl, hlead, hname, hdot, hdots⟩ := exists_lead_of_rename hrename
    obtain ⟨links, place, h⟩ := exists_drafted hd hlead hname hdot hdots hdraft hwrite
    exact .inl ⟨d', rfl, h.read_of_rename hlead hname hrename⟩

/-- **Saved settings are what is loaded**, and where saving fails what is loaded is as before.  The
draft must not be written through a link; once saved, it is gone. -/
theorem loadSettings_saveSettings (hd : d.IsGrounded)
    (hdraft : ∀ target, (d.makeParent p).2.node false (draftPath p) ≠ .ok (.link target))
    (s : Settings) :
    (∀ d', d.saveSettings s p = (.ok (), d') →
      (∃ q, (d.makeParent p).2.locate false (draftPath p) = .ok q ∧ d'.root.lookup q = none) ∧
      (∀ n, d'.node false (draftPath p) ≠ .ok n) ∧
      (d'.loadSettings p = s ∨
        (∃ target, (d.makeParent p).2.node false p = .ok (.link target)) ∧
        d'.read p = .error .notFolder)) ∧
    ∀ e d', d.saveSettings s p = (.error e, d') → d.LeavesFolders p →
      d'.loadSettings p = d.loadSettings p := by
  have hd₁ := isGrounded_makeParent hd p
  have hmade : d.LeavesFolders p → (d.makeParent p).2.loadSettings p = d.loadSettings p :=
    loadSettings_makeParent hd
  rw [saveSettings]
  rcases hmake : d.makeParent p with ⟨_ | ⟨⟨⟩⟩, d₁⟩
  · rw [hmake] at hmade
    refine ⟨by rintro _ ⟨⟩, ?_⟩
    rintro _ _ ⟨⟩ hleaves
    exact hmade hleaves
  rw [hmake] at hd₁ hdraft hmade
  dsimp only at hd₁ hdraft hmade ⊢
  cases hrender : s.render with
  | none =>
    refine ⟨by rintro _ ⟨⟩, ?_⟩
    rintro _ _ ⟨⟩ hleaves
    exact hmade hleaves
  | some text =>
    dsimp only
    rcases replaceFile_cases hd₁ hdraft text with
      ⟨d', hreplace, hgone, hnone, hread⟩ | ⟨e, d', hreplace, hload⟩
    · rw [hreplace]
      refine ⟨?_, by rintro _ _ ⟨⟩⟩
      rintro _ ⟨⟩
      exact ⟨hgone, hnone, hread.imp_left (loadSettings_document hrender)⟩
    · rw [hreplace]
      refine ⟨by rintro _ ⟨⟩, ?_⟩
      rintro _ _ ⟨⟩ hleaves
      exact hload.trans (hmade hleaves)

/-! ## A few disks -/

/-- A disk on which relative paths start in a folder of its own. -/
def desk (es : Entries Content) : Disk Content :=
  ⟨.cons [0x77] (.folder es) .nil, [[0x77]]⟩

theorem isGrounded_desk (es : Entries Content) : (desk es).IsGrounded :=
  rfl

/-- The name of the draft of a file `c`. -/
def deskDraft : Bytes := [0x63, 0x2E, 0x74, 0x6F, 0x6D, 0x6C, 0x2E, 0x74, 0x6D, 0x70]

theorem draftPath_desk : draftPath ⟨[0x63]⟩ = ⟨deskDraft⟩ := by
  decide +kernel

theorem makeParent_desk (es : Entries Content) :
    (desk es).makeParent ⟨[0x63]⟩ = (.ok (), desk es) := by
  cbv

theorem replaceFile_desk (text : String) : ∃ d', (desk .nil).replaceFile ⟨[0x63]⟩ text =
    (.ok (), d') := by
  have hwrite : ∀ content, (desk .nil).write ⟨deskDraft⟩ content =
      .ok (desk (.cons deskDraft (.file content) .nil)) := by
    intro content
    cbv
  have hrename : ∀ content, (desk (.cons deskDraft (.file content) .nil)).rename ⟨deskDraft⟩
      ⟨[0x63]⟩ = .ok (desk (.cons [0x63] (.file content) .nil)) := by
    intro content
    cbv
  rw [replaceFile, draftPath_desk, hwrite]
  dsimp only
  rw [hrename]
  exact ⟨_, rfl⟩

/-- The desk with an empty file `c`. -/
def deskWithFile : Disk Content :=
  desk (.cons [0x63] (.file (.bytes [])) .nil)

/-- Settings with quotes, a backslash, a line break and a control character. -/
def quotedSettings : Settings where
  root := some (.ofString "/m\"")
  extension := "'\\\n\x01"

/-- Such settings are saved in a new file, and settings with a path that is no text leave a file
as it is. -/
theorem loadSettings_saveSettings_desk :
    (∃ d', (desk .nil).saveSettings quotedSettings ⟨[0x63]⟩ = (.ok (), d') ∧
      d'.loadSettings ⟨[0x63]⟩ = quotedSettings) ∧
    ∃ e d', deskWithFile.saveSettings { root := some ⟨[0xFF]⟩ } ⟨[0x63]⟩ = (.error e, d') ∧
      d'.loadSettings ⟨[0x63]⟩ = deskWithFile.loadSettings ⟨[0x63]⟩ := by
  constructor
  · obtain ⟨text, htext⟩ : ∃ text, quotedSettings.render = some text :=
      Settings.exists_render (some "/m\"") _ none
    obtain ⟨d', hreplace⟩ := replaceFile_desk text
    have hdraft : (desk .nil).node false ⟨deskDraft⟩ = .error .notFound := by cbv
    have hnode : (desk .nil).node false ⟨[0x63]⟩ = .error .notFound := by cbv
    have hsave : (desk .nil).saveSettings quotedSettings ⟨[0x63]⟩ = (.ok (), d') := by
      rw [saveSettings, makeParent_desk]
      dsimp only
      rw [htext]
      exact hreplace
    refine ⟨d', hsave, ?_⟩
    obtain ⟨-, -, hload⟩ := (loadSettings_saveSettings (isGrounded_desk .nil)
      (by rw [makeParent_desk, draftPath_desk, hdraft]; simp) _).1 d' hsave
    refine hload.resolve_right ?_
    rw [makeParent_desk, hnode]
    simp
  · have hrender : Settings.render { root := some ⟨[0xFF]⟩ } = none := by decide +kernel
    have hdraft : deskWithFile.node false ⟨deskDraft⟩ = .error .notFound := by cbv
    have hmake : deskWithFile.makeParent ⟨[0x63]⟩ = (.ok (), deskWithFile) := makeParent_desk _
    have hsave : deskWithFile.saveSettings { root := some ⟨[0xFF]⟩ } ⟨[0x63]⟩ =
        (.error .notText, deskWithFile) := by
      rw [saveSettings, hmake]
      dsimp only
      rw [hrender]
    have hgrounded : deskWithFile.IsGrounded := isGrounded_desk _
    refine ⟨_, _, hsave, (loadSettings_saveSettings hgrounded
      (by rw [hmake, draftPath_desk, hdraft]; simp) _).2 _ _ hsave ?_⟩
    intro before after hsteps
    have hone : Path.steps ⟨[0x63]⟩ = [[0x63]] := by decide +kernel
    rw [hone] at hsteps
    rcases before with _ | ⟨_, before⟩ <;> simp [Path.dot] at hsteps

/-- A disk with a link `L` to the folder in which it stands. -/
def looped (entries : Entries Content) : Disk Content :=
  desk (.cons [0x4C] (.link ⟨[0x2E]⟩) entries)

/-- The path `L/L`, through that link to itself. -/
def loopPath : Path := ⟨[0x4C, 0x2F, 0x4C]⟩

/-- The name of the draft for it. -/
def loopDraft : Bytes := [0x4C, 0x2E, 0x74, 0x6F, 0x6D, 0x6C, 0x2E, 0x74, 0x6D, 0x70]

theorem draftPath_loopPath : draftPath loopPath = ⟨[0x4C, 0x2F] ++ loopDraft⟩ := by
  decide +kernel

theorem makeParent_looped : (looped .nil).makeParent loopPath = (.ok (), looped .nil) := by
  cbv

/-- A link that a path goes along to its own folder is replaced by the file of settings, and the
path leads nowhere. -/
theorem exists_saveSettings_lost : ∃ d', (looped .nil).saveSettings quotedSettings loopPath =
    (.ok (), d') ∧ d'.loadSettings loopPath = {} := by
  obtain ⟨text, htext⟩ : ∃ text, quotedSettings.render = some text :=
    Settings.exists_render (some "/m\"") _ none
  have hwrite : ∀ content, (looped .nil).write ⟨[0x4C, 0x2F] ++ loopDraft⟩ content =
      .ok (looped (.cons loopDraft (.file content) .nil)) := by
    intro content
    cbv
  have hrename : ∀ content, (looped (.cons loopDraft (.file content) .nil)).rename
      ⟨[0x4C, 0x2F] ++ loopDraft⟩ loopPath = .ok (desk (.cons [0x4C] (.file content) .nil)) := by
    intro content
    cbv
  have hread : ∀ content, (desk (.cons [0x4C] (.file content) .nil)).read loopPath =
      .error .notFolder := by
    intro content
    cbv
  refine ⟨desk (.cons [0x4C] (.file (.bytes (Utf8.encode text))) .nil), ?_, ?_⟩
  · rw [saveSettings, makeParent_looped]
    dsimp only
    rw [htext]
    dsimp only
    rw [replaceFile, draftPath_loopPath, hwrite]
    dsimp only
    rw [hrename]
  · rw [loadSettings, hread]

/-- A disk with a file `b`, beside other entries. -/
def holding (content : Content) (entries : Entries Content) : Disk Content :=
  desk (.cons [0x62] (.file content) entries)

/-- The path `a/../b`. -/
def leavingPath : Path := ⟨[0x61, 0x2F, 0x2E, 0x2E, 0x2F, 0x62]⟩

theorem draftPath_leavingPath : draftPath leavingPath =
    ⟨leavingPath.bytes ++ [0x2E, 0x74, 0x6F, 0x6D, 0x6C, 0x2E, 0x74, 0x6D, 0x70]⟩ := by
  decide +kernel

/-- The folder `a` was missing, and is made. -/
theorem makeParent_holding (content : Content) : (holding content .nil).makeParent leavingPath =
    (.ok (), holding content (.cons [0x61] (.folder .nil) .nil)) := by
  cbv

/-- **Saved settings can be lost, and a failure can change them**, although no link stands where the
draft is written. -/
theorem exists_loadSettings_ne :
    (∃ (d d' : Disk Content) (s : Settings) (p : Path), d.IsGrounded ∧
      (∀ target, (d.makeParent p).2.node false (draftPath p) ≠ .ok (.link target)) ∧
      d.saveSettings s p = (.ok (), d') ∧ d'.loadSettings p ≠ s) ∧
    ∃ (d d' : Disk Content) (s : Settings) (p : Path) (e : SettingsError), d.IsGrounded ∧
      (∀ target, (d.makeParent p).2.node false (draftPath p) ≠ .ok (.link target)) ∧
      d.saveSettings s p = (.error e, d') ∧ d'.loadSettings p ≠ d.loadSettings p := by
  have hdefault : ({} : Settings) ≠ quotedSettings := by
    intro h
    cases congrArg Settings.root h
  constructor
  · obtain ⟨d', hsave, hload⟩ := exists_saveSettings_lost
    have hnode : (looped .nil).node false ⟨[0x4C, 0x2F] ++ loopDraft⟩ = .error .notFound := by
      cbv
    exact ⟨looped .nil, d', _, _, isGrounded_desk _,
      by rw [makeParent_looped, draftPath_loopPath, hnode]; simp, hsave, hload ▸ hdefault⟩
  · -- the settings in the file are found once there is a folder to leave
    obtain ⟨text, htext⟩ : ∃ text, quotedSettings.render = some text :=
      Settings.exists_render (some "/m\"") _ none
    generalize hcontent : Content.bytes (Utf8.encode text) = content
    have hnode : (holding content (.cons [0x61] (.folder .nil) .nil)).node false
        (draftPath leavingPath) = .error .notFound := by
      rw [draftPath_leavingPath]
      cbv
    have hbefore : (holding content .nil).read leavingPath = .error .notFound := by
      cbv
    have hafter : (holding content (.cons [0x61] (.folder .nil) .nil)).read leavingPath =
        .ok content := by
      cbv
    have hrender : Settings.render { root := some ⟨[0xFF]⟩ } = none := by decide +kernel
    have hsave : (holding content .nil).saveSettings { root := some ⟨[0xFF]⟩ } leavingPath =
        (.error .notText, holding content (.cons [0x61] (.folder .nil) .nil)) := by
      rw [saveSettings, makeParent_holding]
      dsimp only
      rw [hrender]
    refine ⟨holding content .nil, _, _, _, _, isGrounded_desk _,
      by rw [makeParent_holding, hnode]; simp, hsave, ?_⟩
    rw [loadSettings_document htext (hcontent ▸ hafter), loadSettings, hbefore]
    exact hdefault.symm

end Disk
end Fonoteca
