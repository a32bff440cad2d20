import Fonoteca.Proofs.Lists
import Fonoteca.Proofs.Text.Encoding
import Fonoteca.Proofs.Text.Percent
import Fonoteca.Store.Opening
import Mathlib.Data.List.TakeWhile

/-!
# How the address of a path is read

An address is a scheme with the path behind it, letter for letter.  Whoever reads it looks for more
than that: another scheme, options, and bytes that are percent encoded.  The database then looks at
the name once more.  At each of these steps a name may become shorter and never longer, so a path
that is read as something else is read as something shorter.

* `Address.parse?_append` : what an address says, if no further scheme stands in the path.
* **`Address.parse?_eq_iff`** : the address of a text says the text and nothing else, if and only if
  the text is `Address.IsSpelled`.
* **`Address.openedPath_eq_iff`** : the path that the text is, is opened, if and only if the database
  does not take it for a location either, so the text is `Address.IsPlain`.
-/

set_option autoImplicit false

namespace Fonoteca

open Text

/-! ## Pieces of a text -/

namespace Text.Utf8

theorem length_encodeChars_append (cs ds : List Char) :
    (encodeChars (cs ++ ds)).length = (encodeChars cs).length + (encodeChars ds).length := by
  rw [encodeChars, List.flatMap_append, List.length_append, encodeChars, encodeChars]

theorem eq_nil_of_length_encodeChars {cs : List Char} (h : (encodeChars cs).length = 0) :
    cs = [] := by
  cases cs with
  | nil => rfl
  | cons c cs =>
    rw [List.length_eq_zero_iff, encodeChars_cons, List.append_eq_nil_iff] at h
    exact absurd h.1 String.utf8EncodeChar_ne_nil

/-- A piece of a text has no more bytes than the text. -/
theorem length_encodeChars_le {cs ds : List Char} (h : cs <:+: ds) :
    (encodeChars cs).length ≤ (encodeChars ds).length := by
  obtain ⟨before, after, rfl⟩ := h
  rw [length_encodeChars_append, length_encodeChars_append]
  omega

/-- A piece with as many bytes is all of the text. -/
theorem eq_of_length_encodeChars {cs ds : List Char} (h : cs <:+: ds)
    (hlength : (encodeChars cs).length = (encodeChars ds).length) : cs = ds := by
  obtain ⟨before, after, rfl⟩ := h
  rw [length_encodeChars_append, length_encodeChars_append] at hlength
  obtain rfl : before = [] := eq_nil_of_length_encodeChars (by omega)
  obtain rfl : after = [] := eq_nil_of_length_encodeChars (by omega)
  rw [List.nil_append, List.append_nil]

end Text.Utf8

namespace Address

open Database Utf8

variable {cs text : List Char} {a b : Address} {s : String}

/-! ## The scheme -/

theorem dropRepeated_of_not_prefix (h : ¬ text <+: cs) : dropRepeated text cs = cs := by
  rw [dropRepeated, dif_neg fun hp => h (List.isPrefixOf_iff_prefix.1 hp.2)]

theorem dropRepeated_append (hne : text ≠ []) (cs : List Char) :
    dropRepeated text (text ++ cs) = dropRepeated text cs := by
  rw [dropRepeated, dif_pos ⟨hne, List.isPrefixOf_iff_prefix.2 (List.prefix_append text cs)⟩,
    List.drop_left]

theorem dropRepeated_isSuffix (text cs : List Char) : dropRepeated text cs <:+ cs := by
  fun_induction dropRepeated text cs with
  | case1 cs _ ih => exact ih.trans (List.drop_suffix _ _)
  | case2 cs _ => exact List.suffix_rfl

/-- What stands behind the scheme of an address. -/
def withoutScheme (address : List Char) : List Char :=
  dropRepeated scheme.toList (dropRepeated (scheme.toList ++ ['/', '/']) address)

theorem parse?_eq (address : String) :
    parse? address = (do
      let a ← ofName ((withoutScheme address.toList).takeWhile (· ≠ '?'))
      (Percent.pairs (((withoutScheme address.toList).dropWhile (· ≠ '?')).drop 1)).foldlM
        withOption a) :=
  rfl

theorem scheme_ne_nil : scheme.toList ≠ [] := by
  decide +kernel

theorem withoutScheme_of_noSlashes (hslashes : ¬ ['/', '/'] <+: cs) :
    withoutScheme (scheme.toList ++ cs) = dropRepeated scheme.toList cs := by
  have hfirst : ¬ scheme.toList ++ ['/', '/'] <+: scheme.toList ++ cs := by
    rwa [List.prefix_append_right_inj]
  rw [withoutScheme, dropRepeated_of_not_prefix hfirst, dropRepeated_append scheme_ne_nil]

/-- The scheme is taken off, and nothing else if the text does not go on like that. -/
theorem withoutScheme_append (hslashes : ¬ ['/', '/'] <+: cs) (hscheme : ¬ scheme.toList <+: cs) :
    withoutScheme (scheme.toList ++ cs) = cs := by
  rw [withoutScheme_of_noSlashes hslashes, dropRepeated_of_not_prefix hscheme]

/-- Otherwise something at the front of the text is taken off as well. -/
theorem exists_withoutScheme_isSuffix (h : ['/', '/'] <+: cs ∨ scheme.toList <+: cs) :
    ∃ front rest, cs = front ++ rest ∧ front ≠ [] ∧
      withoutScheme (scheme.toList ++ cs) <:+ rest := by
  by_cases hslashes : ['/', '/'] <+: cs
  · obtain ⟨rest, rfl⟩ := hslashes
    refine ⟨_, rest, rfl, by simp, ?_⟩
    rw [withoutScheme, ← List.append_assoc, dropRepeated_append (by simp)]
    exact (dropRepeated_isSuffix _ _).trans (dropRepeated_isSuffix _ _)
  · obtain ⟨rest, rfl⟩ := h.resolve_left hslashes
    refine ⟨_, rest, rfl, scheme_ne_nil, ?_⟩
    rw [withoutScheme_of_noSlashes hslashes, dropRepeated_append scheme_ne_nil]
    exact dropRepeated_isSuffix _ _

theorem withoutScheme_ne (h : ['/', '/'] <+: cs ∨ scheme.toList <+: cs) :
    withoutScheme (scheme.toList ++ cs) ≠ cs := by
  obtain ⟨front, rest, rfl, hne, hsuffix⟩ := exists_withoutScheme_isSuffix h
  intro heq
  have hle := hsuffix.length_le
  have hpos := List.length_pos_iff.2 hne
  rw [heq, List.length_append] at hle
  omega

theorem withoutScheme_isSuffix (cs : List Char) : withoutScheme (scheme.toList ++ cs) <:+ cs := by
  by_cases h : ['/', '/'] <+: cs ∨ scheme.toList <+: cs
  · obtain ⟨front, rest, rfl, -, hsuffix⟩ := exists_withoutScheme_isSuffix h
    exact hsuffix.trans (List.suffix_append front rest)
  · rw [withoutScheme_append (fun hp => h (.inl hp)) fun hp => h (.inr hp)]

/-- **What an address says**, if no further scheme stands in the path. -/
theorem parse?_append (hslashes : ¬ ['/', '/'] <+: s.toList)
    (hscheme : ¬ scheme.toList <+: s.toList) :
    parse? (scheme ++ s) = (do
      let a ← ofName (s.toList.takeWhile (· ≠ '?'))
      (Percent.pairs ((s.toList.dropWhile (· ≠ '?')).drop 1)).foldlM withOption a) := by
  rw [parse?_eq, String.toList_append, withoutScheme_append hslashes hscheme]

/-! ## The name -/

/-- The name is what the text decodes to, unless the tables are to be in memory. -/
theorem encode_name_of_ofName (h : ofName cs = .ok a) :
    (cs = memoryName.toList ∧ a.name = "") ∨
      (cs ≠ memoryName.toList ∧ encode a.name = Percent.decode cs) := by
  rw [ofName] at h
  split at h
  · next hmemory =>
    cases h
    exact .inl ⟨hmemory, rfl⟩
  · next hmemory =>
    refine .inr ⟨hmemory, ?_⟩
    dsimp only at h
    split at h
    · next name hname =>
      cases h
      exact decode?_eq_some_iff.1 hname
    · cases h

/-- No option changes the name. -/
theorem name_withOption {option : String × String} (h : a.withOption option = .ok b) :
    b.name = a.name := by
  fun_cases withOption a option <;> grind [withOption]

/-- A text that is the whole of what its address says. -/
structure IsSpelled (s : String) : Prop where
  noSlashes : ¬ ['/', '/'] <+: s.toList
  noScheme : ¬ scheme.toList <+: s.toList
  noOptions : '?' ∉ s.toList
  noEscape : ¬ Percent.HasEscape s.toList
  notMemory : s ≠ memoryName

instance (s : String) : Decidable (IsSpelled s) :=
  decidable_of_iff
    (¬ ['/', '/'] <+: s.toList ∧ ¬ scheme.toList <+: s.toList ∧ '?' ∉ s.toList ∧
      ¬ Percent.HasEscape s.toList ∧ s ≠ memoryName)
    ⟨fun ⟨hslashes, hscheme, hoptions, hescape, hmemory⟩ =>
      ⟨hslashes, hscheme, hoptions, hescape, hmemory⟩,
     fun h => ⟨h.noSlashes, h.noScheme, h.noOptions, h.noEscape, h.notMemory⟩⟩

theorem address_ofString (s : String) : address (some (.ofString s)) = scheme ++ s := by
  rw [address, Option.map_some, Option.getD_some, Path.display_ofString]

/-- The name in the address of a text is no longer than the text, and only if it is as long the text
is all that the address says. -/
theorem length_name_of_parse? (h : parse? (address (some (.ofString s))) = .ok a) :
    (encode a.name).length ≤ (encode s).length ∧
      ((encode a.name).length = (encode s).length → IsSpelled s) := by
  rw [address_ofString, parse?_eq, String.toList_append] at h
  have hsuffix := withoutScheme_isSuffix s.toList
  generalize hcs : withoutScheme (scheme.toList ++ s.toList) = cs at h hsuffix
  obtain ⟨b, hname, hoptions⟩ := bind_eq_ok h
  rw [foldlM_preserves (f := name) name_withOption hoptions]
  have hprefix : cs.takeWhile (· ≠ '?') <+: cs := List.takeWhile_prefix _
  generalize hfront : cs.takeWhile (· ≠ '?') = front at hname hprefix
  have hpiece : front <:+: s.toList := hprefix.isInfix.trans hsuffix.isInfix
  have hle : (encodeChars front).length ≤ (encode s).length := length_encodeChars_le hpiece
  rcases encode_name_of_ofName hname with ⟨hmemory, hempty⟩ | ⟨hmemory, hdecode⟩
  · -- the text is not empty where the name is
    have hpos : 0 < (encodeChars front).length := by
      rw [hmemory]
      decide +kernel
    have hzero : (encode b.name).length = 0 := by
      rw [hempty]
      rfl
    exact ⟨by omega, fun _ => by omega⟩
  have hshorter := Percent.length_decode_le front
  rw [hdecode]
  refine ⟨hshorter.trans hle, fun hlength => ?_⟩
  -- nothing was cut off, so nothing was there to be cut off
  obtain rfl : front = s.toList := eq_of_length_encodeChars hpiece (hle.antisymm (by omega))
  obtain rfl : cs = s.toList := hsuffix.eq_of_length_le hprefix.length_le
  refine ⟨fun hslashes => ?_, fun hscheme => ?_, fun hmem => ?_, fun hescape => ?_, ?_⟩
  · exact absurd hcs (withoutScheme_ne (.inl hslashes))
  · exact absurd hcs (withoutScheme_ne (.inr hscheme))
  · simpa using List.takeWhile_eq_self_iff.1 hfront _ hmem
  · exact absurd hlength (Percent.length_decode_lt hescape).ne
  · rintro rfl
    exact hmemory rfl

theorem parse?_of_isSpelled (h : IsSpelled s) :
    parse? (address (some (.ofString s))) = .ok { name := s } := by
  have hplain : ∀ c ∈ s.toList, decide (c ≠ '?') = true := fun c hc =>
    decide_eq_true fun heq => h.noOptions (heq ▸ hc)
  have hmemory : s.toList ≠ memoryName.toList := fun heq =>
    h.notMemory (String.toList_injective heq)
  have hdecode : decode? (Percent.decode s.toList) = some s := by
    rw [Percent.decode_of_not_hasEscape h.noEscape, decode?_eq_some_iff, encode]
  rw [address_ofString, parse?_append h.noSlashes h.noScheme, List.takeWhile_eq_self_iff.2 hplain,
    List.dropWhile_eq_nil_iff.2 hplain, ofName, if_neg hmemory]
  dsimp only
  rw [hdecode]
  rfl

/-- **The address of a text says the text**, and nothing but the text, if and only if no part of the
text is taken for something else. -/
theorem parse?_eq_iff : parse? (address (some (.ofString s))) = .ok { name := s } ↔ IsSpelled s :=
  ⟨fun h => (length_name_of_parse? h).2 rfl, parse?_of_isSpelled⟩

end Address

/-! ## What is opened -/

namespace Opening

open Utf8

variable {o o' : Opening} {location rest : List Char}

/-- No option changes the path. -/
theorem path_withOption {option : String × String} (h : o.withOption option = .ok o') :
    o'.path = o.path := by
  fun_cases withOption o option <;> grind [withOption]

theorem path_withOptions {options : List (String × String)} (h : o.withOptions options = .ok o') :
    o'.path = o.path := by
  have hpath := foldlM_preserves (g := withOption) (f := path) path_withOption h
  exact hpath

theorem withoutAuthority_isSuffix (h : withoutAuthority location = .ok rest) :
    rest <:+ location := by
  fun_cases withoutAuthority location with
  | case1 cs authority hhere =>
    rw [withoutAuthority, if_pos hhere] at h
    cases h
    exact (List.dropWhile_suffix _).trans (List.suffix_append ['/', '/'] cs)
  | case2 cs authority hhere =>
    rw [withoutAuthority, if_neg hhere] at h
    cases h
  | case3 cs hslashes =>
    rw [withoutAuthority.eq_2 _ hslashes] at h
    cases h
    exact List.suffix_rfl

theorem length_decodePart_le (cs : List Char) :
    (decodePart cs).length ≤ (encodeChars cs).length :=
  (List.takeWhile_prefix _).length_le.trans (Percent.length_decode_le cs)

/-- The path in a location is no longer than the location. -/
theorem length_path_atLocation (h : o.atLocation location = .ok o') :
    o'.path.bytes.length ≤ (encodeChars location).length := by
  obtain ⟨rest, hrest, hoptions⟩ := bind_eq_ok h
  rw [path_withOptions hoptions]
  refine (length_decodePart_le _).trans (length_encodeChars_le ?_)
  have hpiece : (rest.takeWhile (· ≠ '#')).takeWhile (· ≠ '?') <+: rest :=
    (List.takeWhile_prefix _).trans (List.takeWhile_prefix _)
  exact hpiece.isInfix.trans (withoutAuthority_isSuffix hrest).isInfix

end Opening

namespace Address

open Database Utf8

variable {a : Address} {o : Opening} {s : String} {creating : Bool}

/-- The path that is opened is no longer than the name. -/
theorem length_path_opening (h : a.opening creating = .ok o) :
    o.path.bytes.length ≤ (encode a.name).length := by
  rw [opening] at h
  dsimp only at h
  split at h
  · cases h
    exact (List.takeWhile_prefix _).length_le
  split at h
  · cases h
  split at h
  · next location hname =>
    refine (Opening.length_path_atLocation h).trans (length_encodeChars_le ?_)
    rw [hname]
    exact (List.suffix_append "file:".toList location).isInfix
  · cases h
    exact Nat.le_refl _

/-- A text whose address opens the path that the text is. -/
structure IsPlain (s : String) : Prop extends IsSpelled s where
  notLocation : ¬ "file:".toList <+: s.toList
  noZero : 0 ∉ encode s

instance (s : String) : Decidable (IsPlain s) :=
  decidable_of_iff (IsSpelled s ∧ ¬ "file:".toList <+: s.toList ∧ 0 ∉ encode s)
    ⟨fun ⟨hspelled, hlocation, hzero⟩ => ⟨hspelled, hlocation, hzero⟩,
     fun h => ⟨h.toIsSpelled, h.notLocation, h.noZero⟩⟩

theorem opening_of_isPlain (h : IsPlain s) (creating : Bool) :
    ({ name := s } : Address).opening creating =
      .ok { path := .ofString s, access := if creating then .create else .write } := by
  have hzero : 0 ∉ (Path.ofString s).bytes := h.noZero
  rw [opening, if_neg (by simp)]
  dsimp only
  rw [if_neg hzero]
  split
  · next location hname =>
    exact absurd (hname ▸ List.prefix_append "file:".toList location) h.notLocation
  · rfl

theorem isPlain_of_opening (hs : IsSpelled s)
    (h : ({ name := s } : Address).opening creating = .ok o) (hpath : o.path = .ofString s) :
    IsPlain s := by
  rw [opening, if_neg (by simp)] at h
  split at h
  · cases h
  next hzero =>
  refine ⟨hs, ?_, hzero⟩
  rintro ⟨location, hname⟩
  dsimp only at h
  rw [← hname] at h
  -- what stands behind the prefix is shorter than the text
  have hle : o.path.bytes.length ≤ (encodeChars location).length :=
    Opening.length_path_atLocation h
  rw [hpath, Path.ofString] at hle
  dsimp only at hle
  rw [encode, ← hname, length_encodeChars_append] at hle
  have hfile : (encodeChars "file:".toList).length = 5 := by decide +kernel
  omega

/-- The path that is opened at an address. -/
def openedPath (address : String) (creating : Bool) : Except Fault Path := do
  let a ← parse? address
  let o ← a.opening creating
  return o.path

theorem openedPath_of_isPlain (h : IsPlain s) (creating : Bool) :
    openedPath (address (some (.ofString s))) creating = .ok (.ofString s) := by
  rw [openedPath, parse?_of_isSpelled h.toIsSpelled, ok_bind, opening_of_isPlain h]
  rfl

/-- **The path that a text is, is the path that is opened**, if and only if no part of the text is
taken for something else. -/
theorem openedPath_eq_iff :
    openedPath (address (some (.ofString s))) creating = .ok (.ofString s) ↔ IsPlain s := by
  refine ⟨fun h => ?_, fun h => openedPath_of_isPlain h creating⟩
  obtain ⟨a, hparse, h⟩ := bind_eq_ok h
  obtain ⟨o, hopening, h⟩ := bind_eq_ok h
  have hpath : o.path = .ofString s := Except.ok.inj h
  -- nowhere on the way has the text become shorter
  obtain ⟨hle, hspelled⟩ := length_name_of_parse? hparse
  have hlength := length_path_opening hopening
  rw [hpath] at hlength
  have hs := hspelled (hle.antisymm hlength)
  rw [parse?_of_isSpelled hs] at hparse
  cases hparse
  exact isPlain_of_opening hs hopening hpath

end Address
end Fonoteca
