import Fonoteca.Proofs.Disk.Listing
import Fonoteca.Proofs.Scan.Consumer
import Fonoteca.Proofs.Scan.Location
import Fonoteca.Proofs.Store.Filing

/-!
# Albums and folders

An album is known by its folder and its name, and the folder is read off the path of a track.  That
path is a text made of the root of the scan and the names behind it, and what is read off it is
tidied, so it has to be shown that different folders are different texts then, and that one folder
is one text.

* `Tables.Sound.album_eq_iff` : in tables whose tracks are filed under their folders, two tracks are
  on one album if and only if their folders are one text and their albums have one name.
* **`Disk.IsBelow.albumDir_eq_iff`** : the folders of two files below a root are one text if and only
  if they are one folder.
* `Disk.IsStored` relates the rows that a scan has added to the files that they are of.
* **`Disk.albums_follow_folders`** : so the tracks of a scan are on one album if and only if their
  files lie in one folder and name one album.

Slashes and dots in the root do not matter, wherever they stand.
-/

set_option autoImplicit false

namespace Fonoteca

open Text
open Tables (Sound Filed KeepsFiled)

/-! ## Albums in the tables -/

namespace Tables

variable {t u : Tables} {r q : TrackRow} {row row' : JoinedRow}

/-- The album of a track shows with its name. -/
theorem Sound.album_name_of_shows (h : Sound t) (hrow : t.Shows r row) {a : AlbumRow}
    (ha : t.album? r.album = some a) : a.name = row.album := by
  obtain ⟨b, hb, hid, hname⟩ := hrow.album
  obtain rfl := Option.some.inj (ha.symm.trans (h.album?_eq_some_iff.2 ⟨hb, hid⟩))
  exact hname

/-- **Two tracks are on one album** if and only if their paths have one folder and their albums have
one name. -/
theorem Sound.album_eq_iff (h : Sound t) (hfiled : Filed t) (hr : r ∈ t.tracks)
    (hq : q ∈ t.tracks) (hrow : t.Shows r row) (hrow' : t.Shows q row') :
    r.album = q.album ↔
      Track.albumDir { path := r.path } = Track.albumDir { path := q.path } ∧
        row.album = row'.album := by
  obtain ⟨a, ha, hfolder⟩ := hfiled.folders r hr
  obtain ⟨b, hb, hfolder'⟩ := hfiled.folders q hq
  rw [← hfolder, ← hfolder', ← h.album_name_of_shows hrow ha, ← h.album_name_of_shows hrow' hb]
  obtain ⟨hmem, hid⟩ := h.album?_eq_some_iff.1 ha
  obtain ⟨hmem', hid'⟩ := h.album?_eq_some_iff.1 hb
  constructor
  · intro heq
    obtain rfl := Option.some.inj (ha.symm.trans (heq ▸ hb))
    exact ⟨rfl, rfl⟩
  · rintro ⟨hdirectory, hname⟩
    obtain rfl := List.inj_on_of_nodup_map h.albumNames hmem hmem' (Prod.ext hdirectory hname)
    exact hid.symm.trans hid'

end Tables

/-! ## What an ingestion adds to empty tables -/

/-- Each row is that of one of the tracks that were put in. -/
theorem Ingested.exists_record {u : Tables} {tracks accepted : List Track}
    {report : IngestionReport} (h : Ingested {} u tracks accepted report) {r : TrackRow}
    (hr : r ∈ u.tracks) : ∃ record ∈ tracks, u.Shows r (record.row r.id) := by
  obtain ⟨row, hrow⟩ := h.sound.exists_shows hr
  have hmem : row ∈ accepted.map fun a => a.row a.id := by
    have hjoined := h.joined
    rw [show ({} : Tables).joined = [] from List.mergeSort_nil, List.nil_append] at hjoined
    exact hjoined ▸ h.sound.mem_joined_iff.2 ⟨r, hr, hrow⟩
  obtain ⟨a, ha, rfl⟩ := List.mem_map.1 hmem
  obtain ⟨record, hrecord, herased⟩ :=
    List.mem_map.1 (h.erased.subset (List.mem_map_of_mem ha))
  have hsame : record.row a.id = a.row a.id := by
    change record.erased.row a.id = a.erased.row a.id
    rw [herased]
  refine ⟨record, hrecord, ?_⟩
  rw [← hrow.id]
  exact hsame ▸ hrow

/-- Whoever watches an ingestion that goes well, it adds what it adds for one who stays. -/
theorem exists_ingested {patience : Patience} {tracks got : List Track} {report : IngestionReport}
    {s s' : Store} (h : Sound s.tables) (hfresh : ∀ t ∈ tracks, t.IsFresh)
    (hrun : (populate patience tracks).run s = ((got, .ok report), s')) :
    ∃ accepted, Ingested s.tables s'.tables tracks accepted report := by
  cases patience with
  | none => exact ⟨got, ingested_of_populate h hfresh hrun⟩
  | some k =>
    -- what was got falls short of what is new, so it is taken from a watcher who stays
    rcases hstays : (populate none tracks).run s with ⟨⟨accepted, result⟩, s₁⟩
    rw [populate_receive, hstays] at hrun
    cases hrun
    exact ⟨accepted, ingested_of_populate h hfresh hstays⟩

/-- **An ingestion into empty tables** leaves tracks that are filed under their folders, all of them
tracks that were put in, and counts them if it goes well. -/
theorem populate_empty {s : Store} (hempty : s.tables = {}) {tracks : List Track}
    (hfresh : ∀ t ∈ tracks, t.IsFresh) {patience : Patience} {got : List Track}
    {result : Except StoreError IngestionReport} {s' : Store}
    (hrun : (populate patience tracks).run s = ((got, result), s')) :
    Sound s'.tables ∧ Filed s'.tables ∧
    (∀ r ∈ s'.tables.tracks, ∃ record ∈ tracks, s'.tables.Shows r (record.row r.id)) ∧
    ∀ report, result = .ok report → report.inserted = s'.tables.tracks.length := by
  have hsound : Sound s.tables := hempty ▸ .empty
  obtain ⟨hsound', hfiled'⟩ : Sound s'.tables ∧ Filed s'.tables := by
    obtain ⟨u, hu, -, hs⟩ := composes_stepwise.populate filed_ingest patience tracks s
    have htables : s'.tables = u := congrArg Store.tables ((congrArg Prod.snd hrun).symm.trans hs)
    rw [htables]
    exact KeepsFiled.of_reflTransGen hu ⟨hsound, hempty ▸ Tables.filed_empty⟩
  refine ⟨hsound', hfiled', ?_⟩
  cases result with
  | error e =>
    obtain rfl := keeps_populate hsound hrun
    rw [hempty]
    exact ⟨nofun, nofun⟩
  | ok report =>
    obtain ⟨accepted, hingested⟩ := exists_ingested hsound hfresh hrun
    rw [hempty] at hingested
    refine ⟨fun r hr => hingested.exists_record hr, ?_⟩
    rintro _ ⟨⟩
    have hcount := congrArg List.length (hingested.trackIds .empty)
    simpa [Tables.trackIds, hingested.inserted] using hcount.symm

/-! ## The folder of a path -/

namespace Path

variable {root : String} {name name' : Bytes} {names names' : List Bytes}

/-- The folder that is read off the path of a file is its folder, tidied. -/
theorem albumDir_joinAll (hne : root ≠ "") (h : ∀ n ∈ names ++ [name], IsTextEntry n) :
    Track.albumDir { path := ((ofString root).joinAll (names ++ [name])).display } =
      ((ofString root).joinAll names).tidied.display := by
  obtain ⟨rest, hrest⟩ := exists_joinAll_eq_ofString root hne fun n hn => (h n hn).toIsTextName
  have hfolder : ((ofString root).joinAll names).bytes ≠ [] :=
    joinAll_ne_nil (ofString_ne_nil hne)
      fun n hn => (h n (List.mem_append_left _ hn)).toIsName
  have hname := (h name (List.mem_append_right _ (.head _))).toIsEntry
  rw [Track.albumDir, hrest, display_ofString, ← hrest, joinAll_concat, parent?_join hfolder hname]

/-- **Folders below a root have different texts.** -/
theorem display_tidied_inj (hne : root ≠ "") (h : ∀ n ∈ names, IsTextEntry n)
    (h' : ∀ n ∈ names', IsTextEntry n)
    (heq : ((ofString root).joinAll names).tidied.display =
      ((ofString root).joinAll names').tidied.display) : names = names' := by
  have htext {names : List Bytes} (h : ∀ n ∈ names, IsTextEntry n) :
      ∃ s, ((ofString root).joinAll names).tidied = ofString s := by
    obtain ⟨rest, hrest⟩ := exists_joinAll_eq_ofString root hne fun n hn => (h n hn).toIsTextName
    rw [hrest]
    exact exists_tidied_eq_ofString (by simp [hne])
  obtain ⟨s, hs⟩ := htext h
  obtain ⟨s', hs'⟩ := htext h'
  rw [hs, hs', display_ofString, display_ofString] at heq
  exact tidied_joinAll_inj (ofString_ne_nil hne) (fun n hn => (h n hn).toIsEntry)
    (fun n hn => (h' n hn).toIsEntry) (by rw [hs, hs', heq])

theorem albumDir_joinAll_eq_iff (hne : root ≠ "") (h : ∀ n ∈ names ++ [name], IsTextEntry n)
    (h' : ∀ n ∈ names' ++ [name'], IsTextEntry n) :
    Track.albumDir { path := ((ofString root).joinAll (names ++ [name])).display } =
        Track.albumDir { path := ((ofString root).joinAll (names' ++ [name'])).display } ↔
      names = names' := by
  rw [albumDir_joinAll hne h, albumDir_joinAll hne h']
  refine ⟨display_tidied_inj hne (fun n hn => h n (List.mem_append_left _ hn))
    fun n hn => h' n (List.mem_append_left _ hn), ?_⟩
  rintro rfl
  rfl

end Path

/-! ## The folders of the files -/

namespace Disk

variable {α : Type} {d : Disk α} {reader : TagReader} {root extension : String}
  {names names' place place' : List Bytes}

/-- **The folders of two files** below a root are one text if and only if they are one folder. -/
theorem IsBelow.albumDir_eq_iff (hnames : d.root.Named Path.IsTextEntry)
    (h : d.IsBelow (.ofString root) names place) (h' : d.IsBelow (.ofString root) names' place') :
    Track.albumDir { path := ((Path.ofString root).joinAll names).display } =
        Track.albumDir { path := ((Path.ofString root).joinAll names').display } ↔
      place.dropLast = place'.dropLast := by
  have hne : root ≠ "" := by
    rintro rfl
    exact h.root_ne_nil rfl
  have hentries := h.names_are hnames
  have hentries' := h'.names_are hnames
  rcases h.self_or_below h' with ⟨rfl, rfl, rfl⟩ | ⟨start, hbelow, hbelow', rfl, rfl⟩
  · -- the root is a file, whose folder need not be read off its path: there is no other file
    exact iff_of_true rfl rfl
  · obtain ⟨folder, name, rfl⟩ := (List.eq_nil_or_concat' names).resolve_left hbelow
    obtain ⟨folder', name', rfl⟩ := (List.eq_nil_or_concat' names').resolve_left hbelow'
    rw [Path.albumDir_joinAll_eq_iff hne hentries hentries', ← List.append_assoc,
      ← List.append_assoc, List.dropLast_concat, List.dropLast_concat, List.append_right_inj]

/-- Where the root does not begin with a blank and the extension does not end with one, the path of
a file that is found is a text without blanks around it. -/
theorem trim_display_of_mem_discover (hnames : d.root.Named Path.IsTextName)
    (hroot : ∀ c ∈ root.toList.head?, isBlank c = false) {c : Char}
    (hc : extension.toList.getLast? = some c) (hplain : isBlank c = false) {p : Path}
    (hp : p ∈ d.discover (.ofString root) extension) :
    Path.ofString p.display = p ∧ trim p.display = p.display := by
  obtain ⟨s, rfl, hne, hends⟩ := exists_text_of_mem_discover hnames hp
  obtain ⟨b, hb, hlast⟩ := hends c hc
  rw [Path.display_ofString, trim_eq_self_iff, String.toList_append,
    List.head?_append_of_ne_nil _ (by simpa using hne), ← String.toList_append, hlast]
  refine ⟨rfl, hroot, ?_⟩
  rintro _ ⟨⟩
  -- behind its name a root that is a file may still have a slash or a dot
  rcases hb with rfl | rfl | rfl
  · exact hplain
  · rfl
  · rfl

/-! ## The rows of a scan -/

/-- A row of tracks is that of a file at or below the root of a scan: the scan has found the file,
and the row shows the record that the tags of the file make. -/
structure IsStored (d : Disk α) (reader : TagReader) (extension : String) (root : Path) (t : Tables)
    (r : TrackRow) (names place : List Bytes) (record : Track) : Prop where
  below : d.IsBelow root names place
  found : root.joinAll names ∈ d.discover root extension
  read : ∃ tags, reader (root.joinAll names) = .ok tags ∧
    Track.ofTags (root.joinAll names) tags = record
  shown : t.Shows r (record.row r.id)

variable {t : Tables} {r q : TrackRow} {record record' : Track}

/-- **The row has the path of its file**, unless this path has blanks around it. -/
theorem IsStored.path (h : d.IsStored reader extension (.ofString root) t r names place record)
    (htrim : trim ((Path.ofString root).joinAll names).display =
      ((Path.ofString root).joinAll names).display) :
    r.path = ((Path.ofString root).joinAll names).display := by
  obtain ⟨tags, -, rfl⟩ := h.read
  rw [← h.shown.path, Track.row, Track.path_ofTags, htrim]

/-- A row of a file that was found is there once for each such file. -/
theorem exists_isStored {P : Bytes → Prop} (hnames : d.root.Named P) {root : Path}
    (hrecord : ∃ record ∈ reader.tracks (d.discover root extension), t.Shows r (record.row r.id)) :
    ∃ names place record, d.IsStored reader extension root t r names place record := by
  obtain ⟨record, hmem, hshown⟩ := hrecord
  obtain ⟨p, hp, tags, htags, rfl⟩ := TagReader.mem_tracks.1 hmem
  obtain ⟨names, place, hbelow, rfl, -⟩ := (mem_discover_iff hnames).1 hp
  exact ⟨names, place, _, hbelow, hp, ⟨tags, htags, rfl⟩, hshown⟩

/-- **Albums follow folders.**  A scan of any tree whose names are texts, with any reader of tags,
puts into an empty store rows of files that it has found, one for each of these files at most.  If
the root does not begin with a blank and the extension does not end with one, two of the rows are on
one album if and only if their files lie in one folder and their records have one name of an album.

The root may be spelled with dots and slashes anywhere.  If the store can be written the scan goes
well, and reports how many rows there are. -/
theorem albums_follow_folders (hnames : d.root.Named Path.IsTextEntry)
    (hroot : ∀ c ∈ root.toList.head?, isBlank c = false) {c : Char}
    (hc : extension.toList.getLast? = some c) (hplain : isBlank c = false) (reader : TagReader)
    (patience : Patience) {s : Store} (hempty : s.tables = {}) :
    ∃ got result s', (scan d reader extension patience (.ofString root)).run s =
        ((got, result), s') ∧
      (s.isOpen = true → s.readOnly = false → ∃ summary, result = .ok summary ∧
        summary.inserted = s'.tables.tracks.length) ∧
      (∀ r ∈ s'.tables.tracks, ∃ names place record,
        d.IsStored reader extension (.ofString root) s'.tables r names place record) ∧
      ∀ r ∈ s'.tables.tracks, ∀ q ∈ s'.tables.tracks, ∀ names place record names' place' record',
        d.IsStored reader extension (.ofString root) s'.tables r names place record →
        d.IsStored reader extension (.ofString root) s'.tables q names' place' record' →
        (r = q ↔ place = place') ∧
        (r.album = q.album ↔
          place.dropLast = place'.dropLast ∧ record.album = record'.album) := by
  have hfresh := reader.isFresh_tracks (d.discover (.ofString root) extension)
  rcases hrun : (populate patience (reader.tracks (d.discover (.ofString root) extension))).run s
    with ⟨⟨got, result⟩, s'⟩
  obtain ⟨hsound, hfiled, hrecords, hcount⟩ := populate_empty hempty hfresh hrun
  refine ⟨got, _, s', by rw [scan, run_scanFiles, hrun], fun hopen hwrite => ?_,
    fun r hr => exists_isStored hnames (hrecords r hr), ?_⟩
  · obtain ⟨_, report, hok⟩ := Store.run_populate (hempty ▸ .empty) hopen hwrite patience
      (reader.tracks (d.discover (.ofString root) extension))
    cases hok.symm.trans hrun
    exact ⟨_, rfl, hcount report rfl⟩
  · intro r hr q hq names place record names' place' record' h h'
    have hkept {p : Path} (hp : p ∈ d.discover (.ofString root) extension) :=
      trim_display_of_mem_discover (hnames.imp fun _ => Path.IsTextEntry.toIsTextName) hroot hc
        hplain hp
    have hpath := h.path (hkept h.found).2
    have hpath' := h'.path (hkept h'.found).2
    constructor
    · rw [← h.below.joinAll_eq_iff (hnames.imp fun _ => Path.IsTextEntry.toIsEntry) h'.below,
        ← (hkept h.found).1, ← (hkept h'.found).1, Path.ofString_inj, ← hpath, ← hpath']
      exact ⟨congrArg _, fun heq => List.inj_on_of_nodup_map hsound.paths hr hq heq⟩
    · rw [hsound.album_eq_iff hfiled hr hq h.shown h'.shown, hpath, hpath',
        h.below.albumDir_eq_iff hnames h'.below]
      rfl

/-! ## One name in two folders -/

/-- A folder with a file and a folder in which there is another one. -/
def fileAndFolder : Entries Unit :=
  .cons (Utf8.encode "a.mp3") (.file ())
    (.cons (Utf8.encode "d") (.folder (.cons (Utf8.encode "b.mp3") (.file ()) .nil)) .nil)

/-- A disk with that folder under the name `m`. -/
def twoFolders : Disk Unit where
  root := .cons (Utf8.encode "m") (.folder fileAndFolder) .nil
  home := []

theorem named_twoFolders : twoFolders.root.Named Path.IsTextEntry := by
  have hentry (s : String) (hs : Utf8.encode s ≠ [] ∧ Path.slash ∉ Utf8.encode s ∧
      Utf8.encode s ≠ [Path.dot] ∧ Utf8.encode s ≠ [Path.dot, Path.dot]) :
      Path.IsTextEntry (Utf8.encode s) := ⟨isEntry_of hs, s, rfl⟩
  have hfolder : fileAndFolder.Named Path.IsTextEntry :=
    ⟨hentry _ (by decide +kernel), by decide +kernel, trivial, hentry _ (by decide +kernel), rfl,
      ⟨hentry _ (by decide +kernel), rfl, trivial, trivial⟩, trivial⟩
  exact ⟨hentry _ (by decide +kernel), rfl, hfolder, trivial⟩

theorem discover_twoFolders : twoFolders.discover (.ofString "m/./") ".mp3" =
    [.ofString "m/./a.mp3", .ofString "m/./d/b.mp3"] := by
  have hstart : twoFolders.locate false (.ofString "m/./") = .ok [Utf8.encode "m"] :=
    locate_top (n := 2) rfl ⟨by decide +kernel, by decide +kernel, by decide +kernel⟩
      (by decide +kernel) ⟨by decide +kernel, by decide +kernel, by decide +kernel⟩
      (by decide +kernel) false
  have hnode : twoFolders.node false (.ofString "m/./") = .ok (.folder fileAndFolder) := by
    refine node_eq_ok_iff.2 ⟨_, hstart, ?_⟩
    rw [Entries.lookup_cons, twoFolders, Entries.find?, if_pos rfl]
    rfl
  have hfiles : (Node.folder fileAndFolder).files =
      [[Utf8.encode "a.mp3"], [Utf8.encode "d", Utf8.encode "b.mp3"]] := by
    have hbelow : (Node.folder (.cons (Utf8.encode "b.mp3") (.file ()) .nil)).files =
        [[Utf8.encode "b.mp3"]] := by
      simp [Node.files, Entries.files, inNameOrder]
    rw [Node.files, fileAndFolder, Entries.files, Entries.files, hbelow, inNameOrder,
      List.mergeSort_of_pairwise (by decide +kernel)]
    rfl
  rw [discover, waysToFiles, hnode]
  dsimp only
  rw [hfiles]
  decide +kernel

/-- A reader that finds the title of each file in its path, and one name of an album. -/
def oneAlbum : TagReader := fun p =>
  .ok { title := some p.display, album := some "Live" }

/-- Two files that name one album lie in two folders, and so there are two albums. -/
theorem albums_follow_folders_twoFolders :
    ∃ got result s', (scan twoFolders oneAlbum ".mp3" none (.ofString "m/./")).run {} =
        ((got, result), s') ∧
      s'.tables.tracks.map (fun r => (r.path, r.album)) =
        [("m/./a.mp3", 1), ("m/./d/b.mp3", 2)] ∧
      (∀ r ∈ s'.tables.tracks, ∃ names place record, twoFolders.IsStored oneAlbum ".mp3"
        (.ofString "m/./") s'.tables r names place record) ∧
      ∀ r ∈ s'.tables.tracks, ∀ q ∈ s'.tables.tracks, ∀ names place record names' place' record',
        twoFolders.IsStored oneAlbum ".mp3" (.ofString "m/./") s'.tables r names place record →
        twoFolders.IsStored oneAlbum ".mp3" (.ofString "m/./") s'.tables q names' place' record' →
        (r.album = q.album ↔
          place.dropLast = place'.dropLast ∧ record.album = record'.album) := by
  have hroot : ∀ c ∈ "m/./".toList.head?, isBlank c = false := by
    rw [show "m/./".toList.head? = some 'm' by decide +kernel]
    rintro _ ⟨⟩
    rfl
  obtain ⟨got, result, s', hrun, -, hstored, hfolders⟩ := albums_follow_folders named_twoFolders
    hroot (show ".mp3".toList.getLast? = some '3' by decide +kernel) (by decide +kernel) oneAlbum
    none (s := {}) rfl
  refine ⟨got, result, s', hrun, ?_, hstored,
    fun r hr q hq _ _ _ _ _ _ h h' => (hfolders r hr q hq _ _ _ _ _ _ h h').2⟩
  rw [show s' = _ from (congrArg Prod.snd hrun).symm, scan, discover_twoFolders]
  decide +kernel

end Disk
end Fonoteca
