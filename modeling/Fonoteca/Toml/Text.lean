import Fonoteca.Text.Numeral

/-!
# Texts in TOML

A text stands between quotes, with escapes, or between apostrophes, as it is; three of either allow
it to go over several lines.

* `basic` and `literal` read what follows the opening quote or apostrophe, `multiBasic` and
  `multiLiteral` what follows three of them.
* `Style` are the four ways to write a text, `Style.of` chooses one, and `write` writes a text.
-/

set_option autoImplicit false

namespace Fonoteca
namespace Toml

/-! ## Characters -/

/-- Whether a character may stand in a text as it is: a tab, or one that is no control character. -/
def isPlain (c : Char) : Bool :=
  c == '\t' || (0x20 ≤ c.toNat && c.toNat != 0x7F)

/-- The character that a code point stands for, if it is one. -/
def charOf? (n : Nat) : Option Char :=
  if n.isValidChar then some (Char.ofNat n) else none

/-- The character of an escape of one letter. -/
def escaped? (c : Char) : Option Char :=
  if c = 'b' then some '\x08'
  else if c = 't' then some '\t'
  else if c = 'n' then some '\n'
  else if c = 'f' then some '\x0c'
  else if c = 'r' then some '\r'
  else if c = '"' ∨ c = '\\' then some c
  else none

/-- The number of hexadecimal digits in an escape by code point. -/
def codeLength? (c : Char) : Option Nat :=
  if c = 'u' then some 4 else if c = 'U' then some 8 else none

/-! ## Reading -/

/-- What the reader of a text is inside of. -/
inductive Mode where
  /-- After so many quotes in a row. -/
  | quotes (n : Nat)
  /-- After a carriage return, which a line feed has to follow. -/
  | return
  /-- After a backslash. -/
  | escape
  /-- In an escape by code point, with so many digits to come. -/
  | code (digits : Nat) (value : Nat)
  /-- Between a backslash and the end of its line. -/
  | lineEnd
  /-- Between the end of a line with a backslash and the next character that is no blank. -/
  | skipping
  deriving DecidableEq, Repr

/-- What a reader of text finds: the text, and the characters behind its end. -/
abbrev Reading := Option (List Char × List Char)

/-- A reading with some more characters in front. -/
def Reading.cons (cs : List Char) (r : Reading) : Reading :=
  r.map fun r => (cs ++ r.1, r.2)

/-- The step after a backslash: the character, or the mode in which the escape goes on. -/
def escapeStep (c : Char) : Option (List Char × Mode) :=
  match escaped? c, codeLength? c with
  | some d, _ => some ([d], .quotes 0)
  | none, some n => some ([], .code n 0)
  | none, none => none

/-- The step inside an escape by code point. -/
def codeStep (digits value : Nat) (c : Char) : Option (List Char × Mode) := do
  let d ← Text.Numeral.hexValue? c
  let value := 16 * value + d
  if digits ≤ 1 then
    let c ← charOf? value
    return ([c], .quotes 0)
  else return ([], .code (digits - 1) value)

/-- Reads a text on one line up to its closing quote. -/
def basicFrom : Mode → List Char → Reading
  | _, [] => none
  | .escape, c :: cs => (escapeStep c).bind fun s => Reading.cons s.1 (basicFrom s.2 cs)
  | .code n v, c :: cs => (codeStep n v c).bind fun s => Reading.cons s.1 (basicFrom s.2 cs)
  | m, c :: cs =>
    if c = '"' then some ([], cs)
    else if c = '\\' then basicFrom .escape cs
    else if isPlain c then Reading.cons [c] (basicFrom m cs)
    else none

/-- Reads a text up to its closing quote. -/
def basic (cs : List Char) : Reading :=
  basicFrom (.quotes 0) cs

/-- Reads a text without escapes up to its closing apostrophe. -/
def literal : List Char → Reading
  | [] => none
  | c :: cs =>
    if c = '\'' then some ([], cs)
    else if isPlain c then Reading.cons [c] (literal cs)
    else none

/-- How many quotes in a row can stand at the end of a text on several lines: the three that close
it, and two of its own. -/
def maxQuotes : Nat := 5

/-- Reads a text on several lines up to its closing quotes.  Escapes are read if `escapes` holds. -/
def multiFrom (quote : Char) (escapes : Bool) : Mode → List Char → Reading
  | .quotes n, [] => if 3 ≤ n then some (List.replicate (n - 3) quote, []) else none
  | _, [] => none
  | .escape, c :: cs =>
    if c = ' ' ∨ c = '\t' then multiFrom quote escapes .lineEnd cs
    else if c = '\n' then multiFrom quote escapes .skipping cs
    else if c = '\r' ∧ cs.head? = some '\n' then multiFrom quote escapes .skipping cs
    else (escapeStep c).bind fun s => Reading.cons s.1 (multiFrom quote escapes s.2 cs)
  | .code n v, c :: cs =>
    (codeStep n v c).bind fun s => Reading.cons s.1 (multiFrom quote escapes s.2 cs)
  | .lineEnd, c :: cs =>
    if c = ' ' ∨ c = '\t' then multiFrom quote escapes .lineEnd cs
    else if c = '\n' ∨ (c = '\r' ∧ cs.head? = some '\n') then multiFrom quote escapes .skipping cs
    else none
  | .skipping, c :: cs =>
    if c = ' ' ∨ c = '\t' ∨ c = '\n' ∨ (c = '\r' ∧ cs.head? = some '\n') then
      multiFrom quote escapes .skipping cs
    else multiFrom quote escapes (.quotes 0) (c :: cs)
  | .return, c :: cs =>
    if c = '\n' then Reading.cons ['\n'] (multiFrom quote escapes (.quotes 0) cs) else none
  | .quotes n, c :: cs =>
    if c = quote then
      if n + 1 = maxQuotes then some (List.replicate 2 quote, cs)
      else multiFrom quote escapes (.quotes (n + 1)) cs
    else if 3 ≤ n then some (List.replicate (n - 3) quote, c :: cs)
    else Reading.cons (List.replicate n quote)
      (if escapes ∧ c = '\\' then multiFrom quote escapes .escape cs
        else if c = '\r' then multiFrom quote escapes .return cs
        else if isPlain c ∨ c = '\n' then
          Reading.cons [c] (multiFrom quote escapes (.quotes 0) cs)
        else none)
termination_by m cs => (cs.length, if m = .skipping then 1 else 0)

/-- The characters without a line break in front. -/
def dropLineBreak : List Char → List Char
  | '\n' :: cs => cs
  | '\r' :: '\n' :: cs => cs
  | cs => cs

/-- Reads a text on several lines up to its closing quotes. -/
def multiBasic (cs : List Char) : Reading :=
  multiFrom '"' true (.quotes 0) (dropLineBreak cs)

/-- Reads a text without escapes on several lines up to its closing apostrophes. -/
def multiLiteral (cs : List Char) : Reading :=
  multiFrom '\'' false (.quotes 0) (dropLineBreak cs)

/-- Reads a text on one line, with its quotes. -/
def singleText : List Char → Reading
  | '"' :: cs => basic cs
  | '\'' :: cs => literal cs
  | _ => none

/-- Reads a text with its quotes. -/
def anyText : List Char → Reading
  | '"' :: '"' :: '"' :: cs => multiBasic cs
  | '\'' :: '\'' :: '\'' :: cs => multiLiteral cs
  | cs => singleText cs

/-! ## Writing -/

/-- The ways to write a text. -/
inductive Style where
  | basic
  | literal
  | multiBasic
  | multiLiteral
  deriving DecidableEq, Repr

namespace Style

/-- Whether a character has to be spelled out by an escape. -/
def needsCode (c : Char) : Bool :=
  !isPlain c && c != '\n'

/-- The length of the longest run of a character, given the one that ends here and the longest. -/
def longestRun (c : Char) (run longest : Nat) : List Char → Nat
  | [] => longest
  | d :: cs =>
    if d = c then longestRun c (run + 1) (max longest (run + 1)) cs else longestRun c 0 longest cs

/-- The way to write a text: the first of the four, in an order of preference, that shows it without
escapes; or else one with escapes. -/
def of (cs : List Char) : Style :=
  let codes := cs.any needsCode
  let backslash := cs.contains '\\'
  let newline := cs.contains '\n'
  let quotes := longestRun '"' 0 0 cs
  let apostrophes := longestRun '\'' 0 0 cs
  if !codes && !backslash && quotes == 0 && !newline then basic
  else if !codes && apostrophes == 0 && !newline then literal
  else if !codes && !backslash && quotes ≤ 2 then multiBasic
  else if !codes && apostrophes ≤ 2 then multiLiteral
  else if newline then multiBasic
  else basic

/-- What stands before and after a text. -/
def delimiter : Style → List Char
  | basic => ['"']
  | literal => ['\'']
  | multiBasic => ['"', '"', '"']
  | multiLiteral => ['\'', '\'', '\'']

/-- Whether a text may go over several lines. -/
def isMulti : Style → Bool
  | multiBasic => true
  | multiLiteral => true
  | _ => false

end Style

/-- A digit of a number in hexadecimal notation, with capital letters. -/
def hexDigit (n : Nat) : Char :=
  if n < 10 then Char.ofNat ('0'.toNat + n) else Char.ofNat ('A'.toNat + (n - 10))

/-- The escape of a character by its code point. -/
def codeEscape (c : Char) : List Char :=
  ['\\', 'u', hexDigit (c.toNat / 0x1000 % 16), hexDigit (c.toNat / 0x100 % 16),
    hexDigit (c.toNat / 0x10 % 16), hexDigit (c.toNat % 16)]

/-- A character between quotes, other than a quote. -/
def escapeChar (multi : Bool) (c : Char) : List Char :=
  if c = '\x08' then ['\\', 'b']
  else if c = '\t' then ['\\', 't']
  else if c = '\n' then (if multi then ['\n'] else ['\\', 'n'])
  else if c = '\x0c' then ['\\', 'f']
  else if c = '\r' then ['\\', 'r']
  else if c = '\\' then ['\\', '\\']
  else if isPlain c then [c]
  else codeEscape c

/-- The characters between quotes, after `run` quotes in a row.  A text on several lines may hold
two quotes in a row as they are. -/
def escapeFrom (multi : Bool) : Nat → List Char → List Char
  | _, [] => []
  | run, c :: cs =>
    if c = '"' then
      if (if multi then 2 else 0) ≤ run then '\\' :: '"' :: escapeFrom multi 0 cs
      else '"' :: escapeFrom multi (run + 1) cs
    else escapeChar multi c ++ escapeFrom multi 0 cs

/-- A text as it is written. -/
def writeChars (cs : List Char) : List Char :=
  let style := Style.of cs
  let inner := match style with
    | .literal => cs
    | .multiLiteral => cs
    | _ => escapeFrom style.isMulti 0 cs
  let opening := if style.isMulti ∧ '\n' ∈ cs then ['\n'] else []
  style.delimiter ++ opening ++ inner ++ style.delimiter

/-- A text as it is written. -/
def write (s : String) : String :=
  String.ofList (writeChars s.toList)

end Toml
end Fonoteca
