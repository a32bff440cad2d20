/-!
# UTF-8, with and without repair

File names and file contents are bytes, and most of them are text in UTF-8.

* `encode` writes a string as bytes.
* `pieces` cuts bytes into characters and malformed pieces.  A malformed piece is a maximal run of
  bytes that begins a character and does not finish it, or else a single byte that begins none.
* `decode?` reads bytes that hold no malformed piece, `decodeLossy` reads any bytes and puts the
  replacement character U+FFFD for each malformed piece.
* `fault?` says where the first malformed piece is.
-/

set_option autoImplicit false

namespace Fonoteca

/-- A sequence of bytes, such as a file name or the contents of a file. -/
abbrev Bytes := List UInt8

namespace Text
namespace Utf8

/-! ## Writing -/

/-- The bytes of a list of characters. -/
def encodeChars (cs : List Char) : Bytes :=
  cs.flatMap String.utf8EncodeChar

/-- The bytes of a string. -/
def encode (s : String) : Bytes :=
  encodeChars s.toList

/-! ## Reading -/

/-- Where the reader stands: between characters, or inside one that still owes `more` bytes, the
next of which lies between `low` and `high`; `bits` is the code point as far as it is known. -/
inductive State where
  | start
  | owing (more : Nat) (low high : UInt8) (bits : Nat)

/-- The state after one more byte between characters, and the piece which that byte completes. -/
def first (b : UInt8) : List (Option Char) × State :=
  if b ≤ 0x7F then ([some (Char.ofNat b.toNat)], .start)
  else if 0xC2 ≤ b ∧ b ≤ 0xDF then ([], .owing 1 0x80 0xBF (b.toNat - 0xC0))
  else if b = 0xE0 then ([], .owing 2 0xA0 0xBF 0)
  else if b = 0xED then ([], .owing 2 0x80 0x9F 0xD)
  else if 0xE1 ≤ b ∧ b ≤ 0xEF then ([], .owing 2 0x80 0xBF (b.toNat - 0xE0))
  else if b = 0xF0 then ([], .owing 3 0x90 0xBF 0)
  else if 0xF1 ≤ b ∧ b ≤ 0xF3 then ([], .owing 3 0x80 0xBF (b.toNat - 0xF0))
  else if b = 0xF4 then ([], .owing 3 0x80 0x8F 4)
  else ([none], .start)

/-- The state after one more byte, and the pieces which that byte completes.  A byte that cannot
continue a character closes it as a malformed piece and is read again as the start of another. -/
def feed : State → UInt8 → List (Option Char) × State
  | .start, b => first b
  | .owing more low high bits, b =>
    if low ≤ b ∧ b ≤ high then
      let known := bits * 64 + (b.toNat - 0x80)
      if more ≤ 1 then ([some (Char.ofNat known)], .start)
      else ([], .owing (more - 1) 0x80 0xBF known)
    else
      (none :: (first b).1, (first b).2)

/-- The pieces of the bytes that follow a state. -/
def piecesFrom : State → Bytes → List (Option Char)
  | .start, [] => []
  | .owing .., [] => [none]
  | s, b :: bs => (feed s b).1 ++ piecesFrom (feed s b).2 bs

/-- The characters and malformed pieces (`none`) of some bytes, in order. -/
def pieces (bs : Bytes) : List (Option Char) :=
  piecesFrom .start bs

/-- The text that the bytes are the UTF-8 form of, if they are well formed. -/
def decode? (bs : Bytes) : Option String :=
  ((pieces bs).mapM id).map String.ofList

/-- The text of the bytes with U+FFFD for each malformed piece. -/
def decodeLossy (bs : Bytes) : String :=
  String.ofList ((pieces bs).map (·.getD '\uFFFD'))

/-! ## Malformed bytes -/

/-- Where bytes cease to be UTF-8: the number of bytes before the first malformed piece, and the
length of that piece, unless it is only cut off at the end. -/
structure Fault where
  index : Nat
  length : Option Nat
  deriving DecidableEq, Repr

/-- What is wrong with the bytes. -/
def Fault.message (f : Fault) : String :=
  match f.length with
  | some n => "invalid utf-8 sequence of " ++ toString n ++ " bytes from index " ++ toString f.index
  | none => "incomplete utf-8 byte sequence from index " ++ toString f.index

/-- The first malformed piece among the bytes that follow a state, after `index` good bytes and
`seen` bytes of a character that is not finished. -/
def faultFrom (index seen : Nat) : State → Bytes → Option Fault
  | .start, [] => none
  | .owing .., [] => some ⟨index, none⟩
  | s, b :: bs =>
    match (feed s b).1 with
    | [] => faultFrom index (seen + 1) (feed s b).2 bs
    | some _ :: _ => faultFrom (index + seen + 1) 0 (feed s b).2 bs
    | none :: _ => some ⟨index, some (max seen 1)⟩

/-- The first malformed piece of some bytes, if there is one. -/
def fault? (bs : Bytes) : Option Fault :=
  faultFrom 0 0 .start bs

end Utf8
end Text
end Fonoteca
