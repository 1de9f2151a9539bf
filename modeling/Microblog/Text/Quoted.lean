import Microblog.Text.Unprintable

/-!
# Quoted text

A text is shown between double quotes, on one line and unambiguously: quotes and
backslashes are escaped, five control characters have short names, and all other
unprintable characters are given by number.

## Main definitions

* `escape` — how one character is shown.
* `quoted` — how a text is shown.
-/

namespace Microblog.Text

/-- How a character is shown inside double quotes. -/
def escape (c : Char) : List Char :=
  if c = '"' ∨ c = '\\' then ['\\', c]
  else if c = '\n' then ['\\', 'n']
  else if c = '\r' then ['\\', 'r']
  else if c = '\t' then ['\\', 't']
  else if c = '\x00' then ['\\', '0']
  else if isUnprintable c then
    '\\' :: 'u' :: '\x7b' :: (Nat.toDigits 16 c.toNat ++ ['\x7d'])
  else [c]

/-- A text between double quotes. -/
def quoted (s : String) : String :=
  String.ofList ('"' :: (s.toList.flatMap escape ++ ['"']))

end Microblog.Text
