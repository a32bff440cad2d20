import Fonoteca.Proofs.Scan.Ingestion
import Fonoteca.Scan.Extraction

/-!
# What an extraction sends

* `TagReader.tracks` are the tracks of the files that can be read, and `TagReader.failures` says of
  the others why not.
* **`extract_none`** : these are what an extraction sends and what it reports, if its receiver
  stays.
* `exists_extract_some` : if its receiver goes away, an extraction gets through the files in front
  of the first one whose track is not taken.
* **`extract_cutOff`** : so the tracks that were taken are counted, and the files in front of that
  one are reported.
* **`Track.isFresh_ofTags`** : what it sends has no identity yet, and an artist without blanks
  around the name.
-/

set_option autoImplicit false

namespace Fonoteca

/-- The tracks of the files that can be read, in order. -/
def TagReader.tracks (reader : TagReader) (paths : List Path) : List Track :=
  paths.filterMap fun path => (reader path).toOption.map (Track.ofTags path)

/-- The files that cannot be read, each with the reason. -/
def TagReader.failures (reader : TagReader) (paths : List Path) : List (Path × String) :=
  paths.filterMap fun path =>
    match reader path with
    | .ok _ => none
    | .error e => some (path, e.message)

/-- How many files can be read, and which cannot. -/
def TagReader.report (reader : TagReader) (paths : List Path) : ExtractionReport where
  extracted := (reader.tracks paths).length
  failed := reader.failures paths

namespace TagReader

variable {reader : TagReader} {path : Path} {paths : List Path}

theorem tracks_append (reader : TagReader) (before after : List Path) :
    reader.tracks (before ++ after) = reader.tracks before ++ reader.tracks after :=
  List.filterMap_append

theorem tracks_of_ok {tags : Tags} (h : reader path = .ok tags) :
    reader.tracks (path :: paths) = Track.ofTags path tags :: reader.tracks paths := by
  simp [tracks, h, Except.toOption]

theorem tracks_of_error {e : LibraryError} (h : reader path = .error e) :
    reader.tracks (path :: paths) = reader.tracks paths := by
  simp [tracks, h, Except.toOption]

theorem failures_of_ok {tags : Tags} (h : reader path = .ok tags) :
    reader.failures (path :: paths) = reader.failures paths := by
  simp [failures, h]

theorem failures_of_error {e : LibraryError} (h : reader path = .error e) :
    reader.failures (path :: paths) = (path, e.message) :: reader.failures paths := by
  simp [failures, h]

/-- Each file is read or reported. -/
theorem length_tracks_add (reader : TagReader) (paths : List Path) :
    (reader.tracks paths).length + (reader.failures paths).length = paths.length := by
  induction paths with
  | nil => rfl
  | cons path paths ih =>
    cases hread : reader path with
    | error e =>
      rw [tracks_of_error hread, failures_of_error hread, List.length_cons, List.length_cons, ← ih]
      rfl
    | ok tags =>
      rw [tracks_of_ok hread, failures_of_ok hread, List.length_cons, List.length_cons, ← ih]
      exact Nat.add_right_comm _ 1 _

end TagReader

/-- **An extraction whose receiver stays** sends a track for each file that can be read, and reports
the others. -/
theorem extract_none (reader : TagReader) (paths : List Path) :
    extract reader none paths = (reader.tracks paths, reader.report paths) := by
  induction paths with
  | nil => rfl
  | cons path paths ih =>
    rw [extract, TagReader.report]
    cases hread : reader path with
    | error e =>
      rw [TagReader.tracks_of_error hread, TagReader.failures_of_error hread, ih]
      rfl
    | ok tags =>
      rw [TagReader.tracks_of_ok hread, TagReader.failures_of_ok hread,
        show Patience.spend none = none from rfl, ih]
      rfl

/-- An extraction goes on as long as its receiver takes tracks: it gets through the files in front of
the first one whose track is not taken any more, or through all of them. -/
theorem exists_extract_some (reader : TagReader) (k : ℕ) (paths : List Path) :
    ∃ before after, paths = before ++ after ∧
      extract reader (some k) paths = (reader.tracks before, reader.report before) ∧
      (reader.tracks before).length ≤ k ∧
      ∀ path ∈ after.head?, (reader.tracks before).length = k ∧ ∃ tags, reader path = .ok tags := by
  induction paths generalizing k with
  | nil => exact ⟨[], [], rfl, rfl, Nat.zero_le k, by simp⟩
  | cons path paths ih =>
    rw [extract]
    cases hread : reader path with
    | error e =>
      obtain ⟨before, after, rfl, hextract, hle, hstop⟩ := ih k
      refine ⟨path :: before, after, rfl, ?_, ?_, ?_⟩
      · rw [hextract, TagReader.report, TagReader.report, TagReader.tracks_of_error hread,
          TagReader.failures_of_error hread]
      · rwa [TagReader.tracks_of_error hread]
      · rwa [TagReader.tracks_of_error hread]
    | ok tags =>
      cases k with
      | zero =>
        refine ⟨[], path :: paths, rfl, rfl, Nat.le_refl 0, ?_⟩
        rintro path ⟨⟩
        exact ⟨rfl, tags, hread⟩
      | succ k =>
        obtain ⟨before, after, rfl, hextract, hle, hstop⟩ := ih k
        refine ⟨path :: before, after, rfl, ?_, ?_, fun next hnext => ?_⟩
        · dsimp only
          rw [if_neg (by simp), show Patience.spend (some (k + 1)) = some k from rfl, hextract,
            TagReader.report, TagReader.report, TagReader.tracks_of_ok hread,
            TagReader.failures_of_ok hread]
          rfl
        · rw [TagReader.tracks_of_ok hread]
          exact Nat.succ_le_succ hle
        · obtain ⟨hlength, hreadable⟩ := hstop next hnext
          rw [TagReader.tracks_of_ok hread]
          exact ⟨congrArg (· + 1) hlength, hreadable⟩

/-- **What an extraction sends and what it reports.**  To a receiver that stays it sends the tracks
of all files that can be read, in order, and it reports of each other file why not.  So it does if
the receiver takes as many tracks as there are.  If the receiver goes away earlier, the tracks that
it took are sent and counted, and of the files that cannot be read those are reported that come
before the one whose track is the next. -/
theorem extract_cutOff (reader : TagReader) (paths : List Path) :
    extract reader none paths = (reader.tracks paths,
      { extracted := (reader.tracks paths).length, failed := reader.failures paths }) ∧
    (reader.tracks paths).length + (reader.failures paths).length = paths.length ∧
    (∀ k, (reader.tracks paths).length ≤ k →
      extract reader (some k) paths = extract reader none paths) ∧
    ∀ k < (reader.tracks paths).length, ∃ before path after tags,
      paths = before ++ path :: after ∧ reader path = .ok tags ∧
      (reader.tracks before).length = k ∧
      extract reader (some k) paths = ((reader.tracks paths).take k,
        { extracted := k, failed := reader.failures before }) := by
  refine ⟨extract_none reader paths, reader.length_tracks_add paths, fun k hk => ?_, fun k hk => ?_⟩
  · obtain ⟨before, after, rfl, hextract, -, hstop⟩ := exists_extract_some reader k paths
    cases after with
    | nil => rw [hextract, extract_none, List.append_nil]
    | cons path after =>
      -- the track at which the receiver is gone would be one more than it takes
      obtain ⟨hlength, tags, hread⟩ := hstop path rfl
      rw [TagReader.tracks_append, TagReader.tracks_of_ok hread, List.length_append,
        List.length_cons, hlength] at hk
      omega
  · obtain ⟨before, after, rfl, hextract, hle, hstop⟩ := exists_extract_some reader k paths
    cases after with
    | nil =>
      rw [List.append_nil] at hk
      omega
    | cons path after =>
      obtain ⟨hlength, tags, hread⟩ := hstop path rfl
      refine ⟨before, path, after, tags, rfl, hread, hlength, ?_⟩
      rw [hextract, TagReader.report, hlength, TagReader.tracks_append, ← hlength,
        List.take_left]

/-- Of three files the second cannot be read, and the receiver takes one track. -/
theorem extract_cutOff_threeFiles :
    ∃ (reader : TagReader) (paths : List Path), 1 < (reader.tracks paths).length ∧
      (∃ before path after tags, paths = before ++ path :: after ∧ reader path = .ok tags ∧
        (reader.tracks before).length = 1 ∧
        extract reader (some 1) paths = ((reader.tracks paths).take 1,
          { extracted := 1, failed := reader.failures before })) ∧
      (extract reader (some 1) paths).2.failed =
        [(⟨[0x62]⟩, "Metadata error for b: no sound")] := by
  let reader : TagReader := fun path =>
    if path.bytes = [0x62] then .error (.metadata path "no sound") else .ok {}
  let paths : List Path := [⟨[0x61]⟩, ⟨[0x62]⟩, ⟨[0x63]⟩]
  have htracks : 1 < (reader.tracks paths).length := by decide +kernel
  obtain ⟨-, -, -, hcutOff⟩ := extract_cutOff reader paths
  exact ⟨reader, paths, htracks, hcutOff 1 htracks, by decide +kernel⟩

namespace Track

theorem IsFresh.of_same {t u : Track} (h : t.IsFresh) (hid : u.id = t.id)
    (hartist : u.artist = t.artist) : u.IsFresh where
  notPersisted := by rw [isPersisted, hid, ← isPersisted, h.notPersisted]
  artist := by rw [hartist, h.artist]

theorem IsFresh.withGenre {t : Track} (h : t.IsFresh) (genre : String) :
    (t.withGenre genre).IsFresh :=
  h.of_same rfl rfl

/-- A fresh track stays fresh if a text is put into it that may be absent. -/
theorem IsFresh.withPresent {t : Track} (h : t.IsFresh) (put : Track → String → Track)
    (hput : ∀ text, (put t text).IsFresh) (text : Option String) :
    (t.withPresent put text).IsFresh := by
  rw [Track.withPresent]
  split
  · exact hput _
  · exact h

/-- **A track that is made of tags is fresh.** -/
theorem isFresh_ofTags (path : Path) (tags : Tags) : (ofTags path tags).IsFresh := by
  have hnew : ({} : Track).IsFresh := ⟨rfl, by decide⟩
  have hartist := hnew.withPresent withArtist (fun text => ⟨rfl, Text.trim_trim text⟩) tags.artist
  have htitle := hartist.withPresent withTitle (fun _ => hartist.of_same rfl rfl) tags.title
  have halbum := htitle.withPresent withAlbum (fun _ => htitle.of_same rfl rfl) tags.album
  have hgenre := halbum.withPresent (fun t text => t.withGenre (Genre.expand text))
    (fun text => halbum.withGenre (Genre.expand text)) tags.genre
  exact hgenre.of_same rfl rfl

end Track

theorem TagReader.isFresh_tracks (reader : TagReader) (paths : List Path) :
    ∀ t ∈ reader.tracks paths, t.IsFresh := by
  intro t ht
  obtain ⟨path, -, hpath⟩ := List.mem_filterMap.1 ht
  obtain ⟨tags, -, rfl⟩ := Option.map_eq_some_iff.1 hpath
  exact Track.isFresh_ofTags path tags

end Fonoteca
