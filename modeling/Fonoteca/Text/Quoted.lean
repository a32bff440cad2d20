import Fonoteca.Text.Hidden

/-!
# Quoted text

A name inside a message stands between double quotes, in a form that shows every character: quotes
and `\` have a `\` in front, the common controls have a letter, and characters that do not show are
spelled by their code point in hexadecimal digits between braces.
-/

set_option autoImplicit false

namespace Fonoteca
namespace Text

/-- A number in small hexadecimal digits without leading zeros. -/
def hexDigits (n : Nat) : List Char :=
  Nat.toDigits 16 n

/-- A character as it stands between quotes. -/
def quoteChar (c : Char) : List Char :=
  if c = '\x00' then ['\\', '0']
  else if c = '\t' then ['\\', 't']
  else if c = '\n' then ['\\', 'n']
  else if c = '\r' then ['\\', 'r']
  else if c = '"' ∨ c = '\\' then ['\\', c]
  else if isCombining c || isHidden c then
    ['\\', 'u', '\x7b'] ++ hexDigits c.toNat ++ ['\x7d']
  else [c]

/-- A text between double quotes, every character of it visible. -/
def quoted (s : String) : String :=
  String.ofList ('"' :: (s.toList.flatMap quoteChar ++ ['"']))

end Text
end Fonoteca
