import Patchbay.Text.Printable

/-!
# Quoted text

A text in a message is put between double quotes, so that its ends can be seen. Quotes, escape
characters, line ends and tabs get a short escape, every other hidden character is written by its
code point in braces.
-/

namespace Patchbay.Text

/-- The spelling of one character between quotes. -/
def quoteChar (c : Char) : List Char :=
  if c = '\x00' then ['\\', '0']
  else if c = '\t' then ['\\', 't']
  else if c = '\r' then ['\\', 'r']
  else if c = '\n' then ['\\', 'n']
  else if c = '\\' then ['\\', '\\']
  else if c = '"' then ['\\', '"']
  else if isPrintable c then [c]
  else ['\\', 'u', '\x7b'] ++ Nat.toDigits 16 c.toNat ++ ['\x7d']

/-- The quoted form of a text. -/
def quote (s : String) : String :=
  String.ofList ('"' :: s.toList.flatMap quoteChar ++ ['"'])

end Patchbay.Text
