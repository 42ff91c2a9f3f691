/-
# Quoted text

A text in double quotes, as it is shown to someone who looks for the exact characters: quotes,
backslashes and all characters that are not visible are escaped.

Key constructions:
* `Quoted.escape`: a character between the quotes.
* `Quoted.ofString`: a text in quotes.
-/
import ImapMessage.Text.Visible

namespace ImapMessage

namespace Quoted

/-- A number in hexadecimal digits, in lower case and without leading zeros. -/
def hex (n : Nat) : List Char :=
  Nat.toDigits 16 n

/-- A character between the quotes. -/
def escape (c : Char) : List Char :=
  if c = '\x00' then ['\\', '0']
  else if c = '\t' then ['\\', 't']
  else if c = '\r' then ['\\', 'r']
  else if c = '\n' then ['\\', 'n']
  else if c = '"' then ['\\', '"']
  else if c = '\\' then ['\\', '\\']
  else if Visible.isVisible c then [c]
  else ['\\', 'u', '\x7b'] ++ hex c.toNat ++ ['\x7d']

/-- A text in quotes. -/
def ofString (s : String) : String :=
  String.ofList ('"' :: s.toList.flatMap escape ++ ['"'])

end Quoted

end ImapMessage
