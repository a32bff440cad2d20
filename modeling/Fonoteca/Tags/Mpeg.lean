import Fonoteca.Text.Utf8

/-!
# Frames of sound

A file of sound is a row of frames, each of which begins with a header of four bytes: eleven bits
that are set, and then the version, the layer, the bit rate, the sample rate and the channels, which
together give the length of the frame.

* `Header.read?` reads a header, `Header.length` is the length of its frame.
* `firstFrame` looks for the first header that a like header follows at the right distance.
-/

set_option autoImplicit false

namespace Fonoteca
namespace Mpeg

/-- The version of the format: 1, or one of the later ones with half or a quarter of its rates. -/
inductive Version where
  | one
  | two
  | twoAndHalf
  deriving DecidableEq, Repr

/-- What the header of a frame says. -/
structure Header where
  version : Version
  layer : Nat
  /-- In thousands of bits per second. -/
  bitRate : Nat
  /-- In samples per second. -/
  sampleRate : Nat
  padded : Bool
  mono : Bool
  deriving DecidableEq, Repr

/-- The bit rates of a layer by their index; an index without a rate is not allowed. -/
def bitRates (version : Version) (layer : Nat) : List Nat :=
  match version, layer with
  | .one, 1 => [0, 32, 64, 96, 128, 160, 192, 224, 256, 288, 320, 352, 384, 416, 448]
  | .one, 2 => [0, 32, 48, 56, 64, 80, 96, 112, 128, 160, 192, 224, 256, 320, 384]
  | .one, _ => [0, 32, 40, 48, 56, 64, 80, 96, 112, 128, 160, 192, 224, 256, 320]
  | _, 1 => [0, 32, 48, 56, 64, 80, 96, 112, 128, 144, 160, 176, 192, 224, 256]
  | _, _ => [0, 8, 16, 24, 32, 40, 48, 56, 64, 80, 96, 112, 128, 144, 160]

/-- The sample rates of a version by their index. -/
def sampleRates : Version → List Nat
  | .one => [44100, 48000, 32000]
  | .two => [22050, 24000, 16000]
  | .twoAndHalf => [11025, 12000, 8000]

/-- The version of its two bits. -/
def version? (bits : Nat) : Option Version :=
  if bits = 0 then some .twoAndHalf
  else if bits = 2 then some .two
  else if bits = 3 then some .one
  else none

namespace Header

/-- The bits of a word from a position on. -/
def bits (word position count : Nat) : Nat :=
  word / Nat.pow 2 position % Nat.pow 2 count

/-- The header that a word of 32 bits spells. -/
def read? (word : Nat) : Option Header := do
  let version ← version? (bits word 19 2)
  let layer := 4 - bits word 17 2
  let bitRate := (bitRates version layer)[bits word 12 4]?.getD 0
  let sampleRate ← (sampleRates version)[bits word 10 2]?
  if layer = 4 ∨ bitRate = 0 then none
  else some ⟨version, layer, bitRate, sampleRate, bits word 9 1 = 1, bits word 6 2 = 3⟩

/-- The number of samples in a frame. -/
def samples (h : Header) : Nat :=
  if h.layer = 1 then 384
  else if h.layer = 2 ∨ h.version = .one then 1152
  else 576

/-- The length of a frame, in bytes. -/
def length (h : Header) : Nat :=
  h.samples * h.bitRate * 125 / h.sampleRate +
    (if h.padded then (if h.layer = 1 then 4 else 1) else 0)

/-- How far the sound of a frame is from its beginning. -/
def dataStart (h : Header) : Nat :=
  4 + (if h.version = .one then (if h.mono then 17 else 32) else (if h.mono then 9 else 17))

end Header

/-- The word of 32 bits at the front of some bytes. -/
def word? : Bytes → Option Nat
  | a :: b :: c :: d :: _ => some (((a.toNat * 256 + b.toNat) * 256 + c.toNat) * 256 + d.toNat)
  | _ => none

/-- Whether two headers belong to one row of frames: they agree in version, layer and sample
rate. -/
def alike (v w : Nat) : Bool :=
  Header.bits v 17 15 = Header.bits w 17 15 ∧ Header.bits v 10 2 = Header.bits w 10 2

/-- The outcome of looking for a frame. -/
inductive Found where
  /-- A frame, and the bytes from its beginning on. -/
  | frame (header : Header) (bytes : Bytes)
  /-- There is no frame. -/
  | nothing
  /-- The bytes end inside of a header. -/
  | cutOff
  deriving DecidableEq, Repr

/-- Looks for the first frame.  A header whose frame is followed by something else is none, and the
search goes on with what follows; a header whose frame the file does not reach beyond ends the
search. -/
def firstFrame (bs : Bytes) : Found :=
  match bs with
  | [] => .nothing
  | b :: rest =>
    if b = 0xFF ∧ (rest.head?.map fun c => decide (0xE0 ≤ c)).getD false then
      match word? bs with
      | none => .cutOff
      | some word =>
        match Header.read? word with
        | none => firstFrame (rest.drop 3)
        | some h =>
          match word? (bs.drop (max h.length 4)) with
          | none => .nothing
          | some next =>
            if alike word next then .frame h bs else firstFrame (rest.drop (max h.length 4 - 1))
    else firstFrame rest
termination_by bs.length
decreasing_by all_goals simp only [List.length_drop, List.length_cons]; omega

end Mpeg
end Fonoteca
