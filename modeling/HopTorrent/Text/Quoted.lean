import HopTorrent.Text.Printable

/-!
# Text/Quoted — a text between quotation marks, safe to print

Quotation marks and backslashes are escaped, the usual control characters get their short form,
and whatever a terminal could not show on its own — a combining mark or an unprintable character —
is written as its code point.
-/

namespace HopTorrent.Text

/-- The code point of a character in braces, in lowercase hexadecimal. -/
def codePoint (c : Char) : List Char :=
  "\\u\x7b".toList ++ Nat.toDigits 16 c.toNat ++ "\x7d".toList

/-- One character as it stands between quotation marks. -/
def quotedChar (c : Char) : List Char :=
  if c = '"' then ['\\', '"']
  else if c = '\\' then ['\\', '\\']
  else if c = '\n' then ['\\', 'n']
  else if c = '\r' then ['\\', 'r']
  else if c = '\t' then ['\\', 't']
  else if c = '\x00' then ['\\', '0']
  else if extendsGrapheme c || !isPrintable c then codePoint c
  else [c]

/-- A text between quotation marks. -/
def quoted (s : String) : String := String.ofList ('"' :: s.toList.flatMap quotedChar ++ ['"'])

end HopTorrent.Text
