import Fonoteca.Proofs.Disk.Discovery
import Fonoteca.Proofs.Scan.Extraction
import Fonoteca.Proofs.Scan.Order
import Fonoteca.Proofs.Text.Trimming

/-!
# Where a track says that its file is

The path in a track is a trimmed text.  The path of a file that is found is a text too, if the root
and the names below it are, but it need not be trimmed: then the track says that its file is where
another one may be, and of the two files the library takes one.

* `Path.ofString_path_ofTags_iff` : a track has the path of its file if and only if this path does
  not begin or end with a blank.
* **`Disk.locations_kept`** : the paths that are found begin as the root does and end as the
  extension does, so where these are plain each track has the path of its file, no two tracks have
  the same, and no file is passed over because of the path of another one.
* `Disk.locations_collide` : where the extension is a blank, one of two files is passed over.
-/

set_option autoImplicit false

namespace Fonoteca

open Text
open Tables (Sound)

/-! ## One file -/

theorem Track.path_ofTags (p : Path) (tags : Tags) :
    (Track.ofTags p tags).path = trim p.display :=
  rfl

/-- A text is trimmed if and only if it neither begins nor ends with a blank. -/
theorem Text.trim_eq_self_iff {s : String} :
    trim s = s ↔ (∀ c ∈ s.toList.head?, isBlank c = false) ∧
      ∀ c ∈ s.toList.getLast?, isBlank c = false := by
  rw [← trimChars_eq_self_iff, ← toList_trim, String.toList_inj]

/-- A track has the path of its file if and only if this path is trimmed. -/
theorem Path.ofString_path_ofTags_iff (s : String) (tags : Tags) :
    Path.ofString (Track.ofTags (.ofString s) tags).path = .ofString s ↔ trim s = s := by
  rw [Track.path_ofTags, Path.display_ofString, Path.ofString_inj]

/-! ## The files of a scan -/

/-- The tracks of some files are of these files. -/
theorem TagReader.mem_tracks {reader : TagReader} {paths : List Path} {track : Track} :
    track ∈ reader.tracks paths ↔
      ∃ p ∈ paths, ∃ tags, reader p = .ok tags ∧ Track.ofTags p tags = track := by
  rw [TagReader.tracks, List.mem_filterMap]
  refine exists_congr fun p => and_congr_right fun _ => ?_
  cases reader p <;> simp [Except.toOption]

/-- Files that are found once become tracks of different paths, if each track has the path of its
file. -/
theorem TagReader.nodup_paths (reader : TagReader) {paths : List Path} (hnodup : paths.Nodup)
    (hkept : ∀ p ∈ paths, ∀ tags, Path.ofString (Track.ofTags p tags).path = p) :
    ((reader.tracks paths).map (·.path)).Nodup := by
  induction paths with
  | nil => exact List.nodup_nil
  | cons p paths ih =>
    obtain ⟨hp, hnodup⟩ := List.nodup_cons.1 hnodup
    have hlater := ih hnodup fun q hq => hkept q (.tail _ hq)
    cases hread : reader p with
    | error e => rwa [tracks_of_error hread]
    | ok tags =>
      rw [tracks_of_ok hread, List.map_cons, List.nodup_cons]
      refine ⟨fun hmem => hp ?_, hlater⟩
      obtain ⟨track, htrack, hpath⟩ := List.mem_map.1 hmem
      obtain ⟨q, hq, tags', -, rfl⟩ := mem_tracks.1 htrack
      rw [← hkept p (.head _) tags, ← hpath, hkept q (.tail _ hq) tags']
      exact hq

/-- An ingestion adds no paths but those of its tracks. -/
theorem Tables.Sound.mem_paths_ingestAll {t : Tables} (h : Sound t) {tracks : List Track}
    {path : String} (hpath : path ∈ (t.ingestAll tracks).paths) :
    path ∈ t.paths ∨ path ∈ tracks.map (·.path) := by
  induction tracks generalizing t with
  | nil => exact .inl hpath
  | cons track tracks ih =>
    rw [List.map_cons, List.mem_cons]
    rcases ih (.additions (h.additions_ingest track) h) hpath with hmem | hmem
    · rcases h.ingest_cases track with ⟨-, -, -, hsame⟩ | ⟨-, -, -, hadded⟩
      · exact .inl (hsame ▸ hmem)
      · rw [hadded, List.mem_append, List.mem_singleton] at hmem
        exact hmem.imp_right .inl
    · exact .inr (.inr hmem)

/-- **A track whose path is new is passed over only because of its song**: no track before it in
the ingestion has its path. -/
theorem Store.passed_over {s : Store} (h : Sound s.tables) (hopen : s.isOpen = true)
    (hwrite : s.readOnly = false) {before after : List Track} {track : Track}
    (hnodup : ((before ++ track :: after).map (·.path)).Nodup) :
    ∃ s₁ s₂ new, ((populate none before).run s).2 = s₁ ∧ (ingest track).run s₁ = (.ok new, s₂) ∧
      (new = none →
        track.path ∈ s.tables.paths ∨ s₁.tables.songOf track ∈ s₁.tables.songs) := by
  obtain ⟨_, _, hbefore⟩ := run_populate h hopen hwrite none before
  have hsound : Sound (s.tables.ingestAll before) := .additions (h.additions_ingestAll before) h
  refine ⟨{ s with tables := s.tables.ingestAll before }, _, _, by rw [hbefore],
    run_ingest (s := { s with tables := s.tables.ingestAll before }) hsound hopen hwrite track,
    fun hnone => ?_⟩
  rcases hsound.ingest_cases track with ⟨hthere, -⟩ | ⟨-, ⟨new, hnew⟩, -⟩
  · refine hthere.imp_left fun hpath => (h.mem_paths_ingestAll hpath).resolve_right fun hmem => ?_
    rw [List.map_append, List.nodup_append] at hnodup
    exact hnodup.2.2 _ hmem _ (List.mem_cons_self ..) rfl
  · exact absurd (hnone.symm.trans hnew) (by simp)

namespace Disk

variable {α : Type} {d : Disk α}

/-- **A file keeps its location** if the root does not begin with a blank and the extension ends in
something else.  For any root and extension that are texts, and a tree whose names are, the path of
a file that is found is read back from its text, and the track of the file has this text without the
blanks around it.  This is the path of the file if and only if there are none: at the front only the
root can have them.  Where the root has none there and the extension ends in no blank, all tracks of
a scan have the paths of their files, different files have different paths, and a track is passed
over only because the library had its path before the scan, or has its song. -/
theorem locations_kept (hnames : d.root.Named Path.IsTextName) (root extension : String) :
    (∀ p ∈ d.discover (.ofString root) extension, ∀ tags,
      Path.ofString p.display = p ∧ (Track.ofTags p tags).path = trim p.display ∧
      (Path.ofString (Track.ofTags p tags).path = p ↔
        (∀ c ∈ root.toList.head?, isBlank c = false) ∧
        ∀ c ∈ p.display.toList.getLast?, isBlank c = false)) ∧
    ((∀ c ∈ root.toList.head?, isBlank c = false) →
      ∀ c ∈ extension.toList.getLast?, isBlank c = false →
      (∀ p ∈ d.discover (.ofString root) extension, ∀ tags,
        Path.ofString (Track.ofTags p tags).path = p) ∧
      ∀ reader : TagReader,
        ((reader.tracks (d.discover (.ofString root) extension)).map (·.path)).Nodup ∧
        ∀ s : Store, s.Reachable → s.isOpen = true → s.readOnly = false →
          ∀ before track after,
            reader.tracks (d.discover (.ofString root) extension) = before ++ track :: after →
            ∃ s₁ s₂ new, ((populate none before).run s).2 = s₁ ∧
              (ingest track).run s₁ = (.ok new, s₂) ∧
              (new = none →
                track.path ∈ s.tables.paths ∨ s₁.tables.songOf track ∈ s₁.tables.songs)) := by
  have hkept : ∀ p ∈ d.discover (.ofString root) extension, ∀ tags,
      Path.ofString p.display = p ∧ (Track.ofTags p tags).path = trim p.display ∧
      (Path.ofString (Track.ofTags p tags).path = p ↔
        (∀ c ∈ root.toList.head?, isBlank c = false) ∧
        ∀ c ∈ p.display.toList.getLast?, isBlank c = false) := by
    intro p hp tags
    obtain ⟨s, rfl, hne, -⟩ := exists_text_of_mem_discover hnames hp
    have hhead : (root ++ s).toList.head? = root.toList.head? := by
      rw [String.toList_append, List.head?_append_of_ne_nil _ (by simpa using hne)]
    refine ⟨by rw [Path.display_ofString], Track.path_ofTags _ _, ?_⟩
    rw [Path.ofString_path_ofTags_iff, trim_eq_self_iff, hhead, Path.display_ofString]
  refine ⟨hkept, fun hroot c hc hplain => ?_⟩
  have hall : ∀ p ∈ d.discover (.ofString root) extension, ∀ tags,
      Path.ofString (Track.ofTags p tags).path = p := by
    intro p hp tags
    refine (hkept p hp tags).2.2.2 ⟨hroot, fun b hb => ?_⟩
    obtain ⟨s, rfl, -, hends⟩ := exists_text_of_mem_discover hnames hp
    obtain ⟨b', hb', hlast⟩ := hends c hc
    rw [Path.display_ofString, hlast, Option.mem_some_iff] at hb
    obtain rfl := hb
    rcases hb' with rfl | rfl | rfl
    · exact hplain
    · rfl
    · rfl
  refine ⟨hall, fun reader => ?_⟩
  have hnodup := TagReader.nodup_paths reader
    (nodup_discover (fun _ => Path.IsTextName.toIsName) hnames (.ofString root) extension) hall
  refine ⟨hnodup, fun s hs hopen hwrite before track after hsplit => ?_⟩
  rw [hsplit] at hnodup
  exact Store.passed_over hs.sound hopen hwrite hnodup

/-! ## Names with blanks -/

/-- A folder whose names have blanks around them. -/
def blankNames : Entries Unit :=
  .cons (Utf8.encode " a.mp3") (.file ()) (.cons (Utf8.encode "a.mp3 ") (.file ())
    (.cons (Utf8.encode "a.mp3  ") (.file ()) .nil))

/-- A disk with that folder under the name `m`. -/
def blanks : Disk Unit where
  root := .cons [0x6D] (.folder blankNames) .nil
  home := []

theorem discover_blanks (extension : String) : blanks.discover (.ofString "m") extension =
    ([[Utf8.encode " a.mp3"], [Utf8.encode "a.mp3 "], [Utf8.encode "a.mp3  "]].filter fun names =>
      opens (.ofString "m") names.dropLast &&
        endsWith (lastName (.ofString "m") names) (Utf8.encode extension)).map
          (Path.ofString "m").joinAll := by
  have hroot : Path.ofString "m" = ⟨[0x6D]⟩ := by decide +kernel
  have hsteps : Path.steps ⟨[0x6D]⟩ = [[0x6D]] := by decide +kernel
  have hnode : blanks.node false (.ofString "m") = .ok (.folder blankNames) := by
    rw [hroot]
    simp [Disk.node, Disk.locate, Disk.walk, hsteps, blanks, Path.isAbsolute, Path.slash,
      Path.dot, Entries.lookup, Entries.find?, Disk.pathLengthLimit, Disk.maxNameLength]
    rfl
  have hfiles : (Node.folder blankNames).files =
      [[Utf8.encode " a.mp3"], [Utf8.encode "a.mp3 "], [Utf8.encode "a.mp3  "]] := by
    rw [Node.files, inNameOrder, List.mergeSort_of_pairwise (by decide +kernel)]
    rfl
  rw [Disk.discover, Disk.waysToFiles, hnode]
  dsimp only
  rw [hfiles]

theorem named_blanks : blanks.root.Named Path.IsTextName := by
  have hname : ∀ s, Utf8.encode s ≠ [] → Path.slash ∉ Utf8.encode s →
      Path.IsTextName (Utf8.encode s) := fun s hne hslash => ⟨⟨hne, hslash⟩, s, rfl⟩
  refine ⟨⟨⟨by decide, by decide⟩, "m", by decide +kernel⟩, rfl, ?_, trivial⟩
  refine ⟨hname _ (by decide +kernel) (by decide +kernel), by decide +kernel, trivial, ?_⟩
  refine ⟨hname _ (by decide +kernel) (by decide +kernel), by decide +kernel, trivial, ?_⟩
  exact ⟨hname _ (by decide +kernel) (by decide +kernel), rfl, trivial, trivial⟩

/-- A blank in front of a name stays where it is. -/
theorem locations_kept_blanks :
    blanks.root.Named Path.IsTextName ∧
    blanks.discover (.ofString "m") ".mp3" = [.ofString "m/ a.mp3"] ∧
    ∀ tags, Path.ofString (Track.ofTags (.ofString "m/ a.mp3") tags).path =
      .ofString "m/ a.mp3" := by
  have hfound : blanks.discover (.ofString "m") ".mp3" = [.ofString "m/ a.mp3"] := by
    rw [discover_blanks]
    decide +kernel
  have hroot : ∀ c ∈ "m".toList.head?, isBlank c = false := by
    rw [show "m".toList.head? = some 'm' by decide +kernel]
    rintro _ ⟨⟩
    decide +kernel
  refine ⟨named_blanks, hfound, ?_⟩
  exact ((locations_kept named_blanks "m" ".mp3").2 hroot '3' (by decide +kernel)
    (by decide +kernel)).1 _ (by rw [hfound]; exact .head _)

/-- **Two files can come to one location.**  Where the extension is a blank, the paths of the files
end in blanks, and the track of the second file is passed over, although its song is another one. -/
theorem locations_collide :
    blanks.discover (.ofString "m") " " = [.ofString "m/a.mp3 ", .ofString "m/a.mp3  "] ∧
    Path.ofString "m/a.mp3 " ≠ .ofString "m/a.mp3  " ∧
    (∀ tags, (Track.ofTags (.ofString "m/a.mp3 ") tags).path = "m/a.mp3") ∧
    (∀ tags, (Track.ofTags (.ofString "m/a.mp3  ") tags).path = "m/a.mp3") ∧
    ((populate none (TagReader.tracks
        (fun p => .ok { title := some (if p = .ofString "m/a.mp3 " then "One" else "Two") })
        (blanks.discover (.ofString "m") " "))).run {}).1 =
      ([{ title := "One", path := "m/a.mp3", id := 1 }], .ok { inserted := 1, skipped := 1 }) := by
  have hfound : blanks.discover (.ofString "m") " " =
      [.ofString "m/a.mp3 ", .ofString "m/a.mp3  "] := by
    rw [discover_blanks]
    decide +kernel
  refine ⟨hfound, by decide +kernel, fun tags => ?_, fun tags => ?_, ?_⟩
  · rw [Track.path_ofTags, Path.display_ofString]
    decide +kernel
  · rw [Track.path_ofTags, Path.display_ofString]
    decide +kernel
  · rw [hfound]
    decide +kernel

end Disk
end Fonoteca
