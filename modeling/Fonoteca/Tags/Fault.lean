import Fonoteca.Disk.Basic

/-!
# Why the tags of a file cannot be read

`TagFault` are the reasons, `TagFault.message` is their text.
-/

set_option autoImplicit false

namespace Fonoteca

/-- What is wrong with a timestamp. -/
inductive TimestampFault where
  /-- The year does not have four digits. -/
  | yearLength
  /-- There is something other than digits where a number has to be. -/
  | notDigits
  deriving DecidableEq, Repr

/-- The text of what is wrong with a timestamp. -/
def TimestampFault.message : TimestampFault → String
  | .yearLength => "Encountered an invalid year length (should be 4 digits)"
  | .notDigits => "Timestamp segment contains non-digit characters"

/-- What is wrong with the bytes of a text. -/
inductive TextFault where
  /-- The byte that names the encoding names none. -/
  | noEncoding
  /-- There is no room for the mark of the byte order. -/
  | tooShort
  /-- There is half a unit of 16 bits. -/
  | oddLength
  /-- The mark of the byte order is missing. -/
  | noByteOrder
  /-- The units are no UTF-16. -/
  | notUtf16
  /-- The bytes are no UTF-8. -/
  | notUtf8
  deriving DecidableEq, Repr

/-- The text of what is wrong with the bytes of a text. -/
def TextFault.message : TextFault → String
  | .noEncoding => "Found invalid encoding"
  | .tooShort => "UTF-16 string has an invalid length (< 2)"
  | .oddLength => "UTF-16 string has an odd length"
  | .noByteOrder => "UTF-16 string has an invalid byte order mark"
  | .notUtf16 => "Given an invalid UTF-16 string"
  | .notUtf8 => "Expected a UTF-8 string"

/-- Why the tags of a file cannot be read. -/
inductive TagFault where
  /-- The file cannot be opened. -/
  | notOpened (e : DiskError)
  /-- The file cannot be read. -/
  | notRead (e : DiskError)
  /-- The name of the file is not one of an audio file. -/
  | noFormat
  /-- The file ends where more has to follow. -/
  | cutOff
  /-- The file holds no sound. -/
  | noFrame
  /-- The tag at the front is of a version that is not known. -/
  | version (major minor : UInt8)
  /-- A text cannot be read. -/
  | text (e : TextFault)
  /-- A date is not written as a timestamp. -/
  | timestamp (e : TimestampFault)
  deriving DecidableEq, Repr

namespace TagFault

/-- What is wrong with the contents of a file. -/
def detail : TagFault → String
  | .notOpened e => e.message
  | .notRead e => e.message
  | .noFormat => "No format could be determined from the provided file"
  | .cutOff => "failed to fill whole buffer"
  | .noFrame => "Mpeg: File contains an invalid frame"
  | .version major minor =>
    "ID3v2: Found an invalid version (v" ++ toString major.toNat ++ "." ++ toString minor.toNat ++
      "), expected any major revision in: (2, 3, 4)"
  | .text e => "Text decoding: " ++ e.message
  | .timestamp e => "Encountered an invalid timestamp: " ++ e.message

/-- The text of a reason. -/
def message (f : TagFault) : String :=
  match f with
  | .notOpened _ => "failed to open file for probing: " ++ f.detail
  | _ => "failed to read file metadata: " ++ f.detail

end TagFault
end Fonoteca
