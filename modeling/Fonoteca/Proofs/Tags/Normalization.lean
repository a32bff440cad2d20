import Fonoteca.Proofs.Text.Trimming
import Fonoteca.Tags.Basic
import Mathlib.Logic.Relation

/-!
# The normal form of tags

The texts of a track are never empty and never begin or end with a blank, whatever the tags of its
file say.  Three steps stand one on another here: what is blank counts as absent, what is left is
trimmed, and a genre that is given by number is named.  That they fit together needs that no genre
of the list is again a number of it, bare or in parentheses, and that the names in the list are
trimmed.

* `Track.ofTags_eq` reads the track off field by field.
* `Tags.Alike` are the tags that differ in blanks only: around a text, or in place of none.
* **`Track.ofTags_normalizes`** : the texts of a track are in normal form, tags that are alike give
  one track, and a track made of the tags that a track has is this track.
-/

set_option autoImplicit false

namespace Fonoteca

/-! ## What is left of a text -/

namespace Text

variable {s t : String}

theorem trimChars_eq_nil_iff {cs : List Char} : trimChars cs = [] ↔ IsBlankText cs := by
  constructor
  · intro h
    rw [trimChars, List.reverse_eq_nil_iff, trimFront, List.dropWhile_eq_nil_iff] at h
    cases hfront : trimFront cs with
    | nil => exact List.dropWhile_eq_nil_iff.1 hfront
    | cons c rest =>
      -- what stands behind the blanks at the front would be blank throughout
      have hc := h c (by simp [hfront])
      rw [isBlank_of_trimFront hfront] at hc
      cases hc
  · intro h
    simpa [trimChars, trimFront] using trimChars_append_left h []

theorem trim_eq_empty_iff : trim s = "" ↔ IsBlankText s.toList := by
  rw [← trimChars_eq_nil_iff, ← toList_trim, String.toList_eq_nil_iff]

theorem trim_pad {v w : String} (hv : IsBlankText v.toList) (hw : IsBlankText w.toList)
    (s : String) : trim (v ++ s ++ w) = trim s := by
  rw [trim, String.toList_append, String.toList_append, trimChars_pad hv hw, trim]

/-- What is present of a text is not empty, and it is the text trimmed. -/
theorem present?_eq_some_iff : present? s = some t ↔ t ≠ "" ∧ trim s = t := by
  rw [present?]
  by_cases h : trim s = ""
  · simp only [h, String.isEmpty_iff, ↓reduceIte, reduceCtorEq, false_iff, not_and]
    exact fun hne heq => hne heq.symm
  · simp only [String.isEmpty_iff, h, ↓reduceIte, Option.some_inj, iff_and_self]
    rintro rfl
    exact h

theorem present?_eq_none_iff : present? s = none ↔ IsBlankText s.toList := by
  rw [← trim_eq_empty_iff, present?]
  simp

theorem present?_pad {v w : String} (hv : IsBlankText v.toList) (hw : IsBlankText w.toList)
    (s : String) : present? (v ++ s ++ w) = present? s := by
  rw [present?, trim_pad hv hw, present?]

/-- A text in normal form: there is something of it, and no blanks around that. -/
structure IsNormal (s : String) : Prop where
  ne_empty : s ≠ ""
  trim_eq : trim s = s

theorem IsNormal.present? (h : IsNormal s) : present? s = some s :=
  present?_eq_some_iff.2 ⟨h.ne_empty, h.trim_eq⟩

theorem isNormal_of_present? (h : present? s = some t) : IsNormal t := by
  obtain ⟨hne, rfl⟩ := present?_eq_some_iff.1 h
  exact ⟨hne, trim_trim s⟩

theorem isNormal_unknown : IsNormal unknown :=
  ⟨by decide, by decide⟩

end Text

/-! ## Genres -/

namespace Genre

open Text

theorem mem_names_of_named? {key : List Char} {name : String} (h : named? key = some name) :
    name ∈ names := by
  obtain ⟨⟨name', i⟩, hfind, rfl⟩ := Option.map_eq_some_iff.1 h
  exact (List.mem_zipIdx (List.mem_of_find?_eq_some hfind)).2.2 ▸ List.getElem_mem _

/-- What a text stands for is the text itself or a genre of the list. -/
theorem expand_eq_self_or (s : String) : expand s = s ∨ expand s ∈ names := by
  rw [expand]
  match h : named? (unwrap (trimChars s.toList)) with
  | none => exact .inl rfl
  | some name => exact .inr (mem_names_of_named? h)

/-- No genre of the list is a number of it. -/
theorem expand_of_mem_names : ∀ name ∈ names, expand name = name := by
  decide +kernel

theorem isNormal_of_mem_names {name : String} (h : name ∈ names) : IsNormal name := by
  have hall : ∀ name ∈ names, name ≠ "" ∧ trim name = name := by decide +kernel
  exact ⟨(hall name h).1, (hall name h).2⟩

/-- **A genre that has been named is not named again.** -/
theorem expand_expand (s : String) : expand (expand s) = expand s := by
  obtain h | h := expand_eq_self_or s
  · rw [h, h]
  · exact expand_of_mem_names _ h

theorem isNormal_expand {s : String} (h : IsNormal s) : IsNormal (expand s) := by
  obtain heq | hmem := expand_eq_self_or s
  · rwa [heq]
  · exact isNormal_of_mem_names hmem

theorem expand_unknown : expand unknown = unknown := by
  decide +kernel

end Genre

/-! ## The texts of a track -/

/-- A text tag as it comes into a track: what is present of it, or the text for none. -/
def Tags.text (tag : Option String) : String :=
  (tag.bind Text.present?).getD unknown

namespace Tags

open Text

variable {tag : Option String}

theorem isNormal_text (tag : Option String) : IsNormal (text tag) := by
  rw [text]
  match h : tag.bind Text.present? with
  | none => exact isNormal_unknown
  | some s =>
    obtain ⟨s', -, hs'⟩ := Option.bind_eq_some_iff.1 h
    exact isNormal_of_present? hs'

theorem text_of_isNormal {s : String} (h : IsNormal s) : text (some s) = s := by
  rw [text, Option.bind_some, h.present?, Option.getD_some]

end Tags

namespace Track

open Text

/-- A text is put into a field as it comes, if what is put is only ever in normal form and the
field holds the text for none. -/
theorem withPresent_eq {t : Track} {put : Track → String → Track} (field : String → Track)
    (hput : ∀ s, IsNormal s → put t s = field s) (hnone : field unknown = t)
    (tag : Option String) : t.withPresent put tag = field (Tags.text tag) := by
  rw [withPresent, Tags.text]
  match h : tag.bind Text.present? with
  | none => exact hnone.symm
  | some s =>
    obtain ⟨s', -, hs'⟩ := Option.bind_eq_some_iff.1 h
    exact hput s (isNormal_of_present? hs')

/-- **The track of a file, field by field.** -/
theorem ofTags_eq (path : Path) (tags : Tags) :
    ofTags path tags =
      { artist := Tags.text tags.artist
        title := Tags.text tags.title
        album := Tags.text tags.album
        number := tags.number.getD 0
        year := tags.year.getD defaultYear
        genre := Genre.expand (Tags.text tags.genre)
        path := trim path.display } := by
  rw [ofTags, withPresent_eq (fun s => { artist := s })
      (fun s hs => by rw [withArtist, hs.trim_eq]) rfl,
    withPresent_eq (fun s => { artist := Tags.text tags.artist, title := s })
      (fun s hs => by rw [withTitle, hs.trim_eq]) rfl,
    withPresent_eq
      (fun s => { artist := Tags.text tags.artist, title := Tags.text tags.title, album := s })
      (fun s hs => by rw [withAlbum, hs.trim_eq]) rfl,
    withPresent_eq
      (fun s => { artist := Tags.text tags.artist, title := Tags.text tags.title,
                  album := Tags.text tags.album, genre := Genre.expand s })
      (fun s hs => by rw [withGenre, (Genre.isNormal_expand hs).trim_eq])
      (by rw [Genre.expand_unknown])]
  rfl

/-- What a track says, as tags of a file. -/
def tags (t : Track) : Tags where
  artist := some t.artist
  title := some t.title
  album := some t.album
  number := some t.number
  year := some t.year
  genre := some t.genre

end Track

/-! ## Tags that differ in blanks only -/

/-- A text tag and the same one with blanks put around it, or blanks where there was none. -/
inductive Tags.Blanked : Option String → Option String → Prop
  | absent {s : String} (h : Text.IsBlankText s.toList) : Blanked none (some s)
  | around {v w : String} (s : String) (hv : Text.IsBlankText v.toList)
      (hw : Text.IsBlankText w.toList) : Blanked (some s) (some (v ++ s ++ w))

/-- The tags differ in blanks only, which may have been put to their texts or taken away. -/
structure Tags.Alike (a b : Tags) : Prop where
  artist : Relation.EqvGen Blanked a.artist b.artist
  title : Relation.EqvGen Blanked a.title b.title
  album : Relation.EqvGen Blanked a.album b.album
  genre : Relation.EqvGen Blanked a.genre b.genre
  number : a.number = b.number
  year : a.year = b.year

namespace Tags

open Text

theorem Blanked.text_eq {a b : Option String} (h : Blanked a b) : text a = text b := by
  cases h with
  | absent h =>
    rw [text, text, Option.bind_none, Option.bind_some, present?_eq_none_iff.2 h]
  | around s hv hw =>
    rw [text, text, Option.bind_some, Option.bind_some, present?_pad hv hw]

/-- **Blanks do not count**, however often some are added or removed. -/
theorem text_eq_of_eqvGen {a b : Option String} (h : Relation.EqvGen Blanked a b) :
    text a = text b := by
  induction h with
  | rel a b h => exact h.text_eq
  | refl a => rfl
  | symm a b _ ih => exact ih.symm
  | trans a b c _ _ hab hbc => exact hab.trans hbc

end Tags

namespace Track

open Text

/-- **Making a track of tags normalizes them.**  Whatever a file says, the texts of its track are
not empty and have no blanks around them; tags that differ from these in blanks only, around a text
or in place of none, give the same track; and so do the track's own fields, given as tags of the
same file. -/
theorem ofTags_normalizes (path : Path) (tags : Tags) :
    (∀ s ∈ [(ofTags path tags).artist, (ofTags path tags).title, (ofTags path tags).album,
        (ofTags path tags).genre], s ≠ "" ∧ trim s = s) ∧
      (∀ tags' : Tags, tags.Alike tags' → ofTags path tags' = ofTags path tags) ∧
      ofTags path (ofTags path tags).tags = ofTags path tags := by
  refine ⟨?_, fun tags' h => ?_, ?_⟩
  · have hartist := Tags.isNormal_text tags.artist
    have htitle := Tags.isNormal_text tags.title
    have halbum := Tags.isNormal_text tags.album
    have hgenre := Genre.isNormal_expand (Tags.isNormal_text tags.genre)
    intro s hs
    rw [ofTags_eq] at hs
    simp only [List.mem_cons, List.not_mem_nil, or_false] at hs
    obtain rfl | rfl | rfl | rfl := hs
    · exact ⟨hartist.ne_empty, hartist.trim_eq⟩
    · exact ⟨htitle.ne_empty, htitle.trim_eq⟩
    · exact ⟨halbum.ne_empty, halbum.trim_eq⟩
    · exact ⟨hgenre.ne_empty, hgenre.trim_eq⟩
  · rw [ofTags_eq, ofTags_eq, h.number, h.year, Tags.text_eq_of_eqvGen h.artist,
      Tags.text_eq_of_eqvGen h.title, Tags.text_eq_of_eqvGen h.album,
      Tags.text_eq_of_eqvGen h.genre]
  · rw [ofTags_eq path (ofTags path tags).tags, ofTags_eq path tags]
    simp only [Track.tags, Option.getD_some]
    rw [Tags.text_of_isNormal (Tags.isNormal_text tags.artist),
      Tags.text_of_isNormal (Tags.isNormal_text tags.title),
      Tags.text_of_isNormal (Tags.isNormal_text tags.album),
      Tags.text_of_isNormal (Genre.isNormal_expand (Tags.isNormal_text tags.genre)),
      Genre.expand_expand]

/-- A blank title is no title, and a number of the list is one with blanks around it too. -/
theorem ofTags_normalizes_blanks :
    Tags.Alike { artist := some "Blur", genre := some "(17)" }
        { artist := some " Blur\t", title := some " ", genre := some "(17) " } ∧
      ofTags (.ofString "a.mp3")
          { artist := some " Blur\t", title := some " ", genre := some "(17) " } =
        ofTags (.ofString "a.mp3") { artist := some "Blur", genre := some "(17)" } ∧
      (ofTags (.ofString "a.mp3") { artist := some "Blur", genre := some "(17)" }).genre =
        "Rock" := by
  have hspace : IsBlankText " ".toList := by decide
  have htab : IsBlankText "\t".toList := by decide
  have hempty : IsBlankText "".toList := by decide
  have halike : Tags.Alike { artist := some "Blur", genre := some "(17)" }
      { artist := some " Blur\t", title := some " ", genre := some "(17) " } :=
    { artist := .rel _ _ (.around "Blur" hspace htab)
      title := .rel _ _ (.absent hspace)
      album := .refl _
      genre := .rel _ _ (.around "(17)" hempty hspace)
      number := rfl
      year := rfl }
  exact ⟨halike, (ofTags_normalizes _ _).2.1 _ halike, by decide +kernel⟩

end Track
end Fonoteca
