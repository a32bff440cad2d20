/-!
# White space and trimming

Tags, queries and names are compared after white space has been dropped at both ends.  White space
is the Unicode property `White_Space`, which is wider than the ASCII class of `Char.isWhitespace`
and narrower than "invisible": zero-width characters and the information separators are not in it.

* `isBlank` decides the property, from the table `blankRanges`.
* `trimChars` drops blanks at both ends of a list of characters, `trim` does so for a string.
-/

set_option autoImplicit false

namespace Fonoteca
namespace Text

/-! ## The property -/

/-- The code points with the property `White_Space`, as closed ranges in ascending order. -/
def blankRanges : List (Nat × Nat) :=
  [(0x09, 0x0D), (0x20, 0x20), (0x85, 0x85), (0xA0, 0xA0), (0x1680, 0x1680), (0x2000, 0x200A),
   (0x2028, 0x2029), (0x202F, 0x202F), (0x205F, 0x205F), (0x3000, 0x3000)]

/-- Whether a character is white space. -/
def isBlank (c : Char) : Bool :=
  blankRanges.any fun r => r.1 ≤ c.toNat && c.toNat ≤ r.2

/-! ## Trimming -/

/-- The characters without the blanks at the front. -/
def trimFront (cs : List Char) : List Char :=
  cs.dropWhile isBlank

/-- The characters without the blanks at either end. -/
def trimChars (cs : List Char) : List Char :=
  (trimFront (trimFront cs).reverse).reverse

/-- The string without the blanks at either end. -/
def trim (s : String) : String :=
  String.ofList (trimChars s.toList)

@[simp] theorem toList_trim (s : String) : (trim s).toList = trimChars s.toList := by
  simp [trim]

/-- What is left begins with a character that is no blank. -/
theorem isBlank_of_trimFront {cs rest : List Char} {c : Char} (h : trimFront cs = c :: rest) :
    isBlank c = false := by
  have hd := List.head?_dropWhile_not isBlank cs
  rw [trimFront] at h
  simpa [h] using hd

/-- Nothing is dropped where the first character is no blank. -/
theorem trimFront_cons {c : Char} {cs : List Char} (h : isBlank c = false) :
    trimFront (c :: cs) = c :: cs := by
  simp [trimFront, h]

@[simp] theorem trimFront_trimFront (cs : List Char) : trimFront (trimFront cs) = trimFront cs := by
  match h : trimFront cs with
  | [] => rfl
  | c :: rest => exact trimFront_cons (isBlank_of_trimFront h)

/-- Dropping blanks ends at the latest where a character is no blank. -/
theorem trimFront_concat {c : Char} (cs : List Char) (h : isBlank c = false) :
    trimFront (cs ++ [c]) = trimFront cs ++ [c] := by
  induction cs with
  | nil => simp [trimFront, h]
  | cons d cs ih =>
    cases hd : isBlank d with
    | true => simpa [trimFront, hd] using ih
    | false => simp [trimFront, hd]

/-- Dropping the blanks at the back leaves none at the front. -/
theorem trimFront_trimChars (cs : List Char) : trimFront (trimChars cs) = trimChars cs := by
  rw [trimChars]
  match h : trimFront cs with
  | [] => rfl
  | c :: rest =>
    have hc := isBlank_of_trimFront h
    rw [List.reverse_cons, trimFront_concat rest.reverse hc, List.reverse_append]
    exact trimFront_cons hc

/-- A trimmed text stays as it is. -/
@[simp] theorem trimChars_trimChars (cs : List Char) : trimChars (trimChars cs) = trimChars cs := by
  rw [trimChars, trimFront_trimChars, trimChars, List.reverse_reverse, trimFront_trimFront]

/-- The trimmed text, if anything is left of it. -/
def present? (s : String) : Option String :=
  if (trim s).isEmpty then none else some (trim s)

end Text
end Fonoteca
