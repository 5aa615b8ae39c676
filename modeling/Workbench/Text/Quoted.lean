import Workbench.Text.UnprintableTable

/-!
# Quoted text

Two ways to write a text between quotes.

* `quoted` is the string literal of JSON, which is also a string literal of the scripts that the page
  runs. The quote, the backslash and the characters below U+0020 are escaped; all else stands for
  itself, also the slash and U+2028.
* `diagnostic` is the form in which a diagnostic shows a text: with a name for the usual controls and
  the code point in braces for every other character that has no glyph of its own or would attach to
  the character before it.
-/

namespace Workbench.Text

/-! ## String literals -/

/-- The digit of a value below 16, in lower case. -/
def hexDigit (n : Nat) : Char := if n < 10 then Char.ofNat (n + 48) else Char.ofNat (n + 87)

/-- The spelling of one character inside the quotes. -/
def quotedChar (c : Char) : List Char :=
  if c = '"' then ['\\', '"']
  else if c = '\\' then ['\\', '\\']
  else if c = '\n' then ['\\', 'n']
  else if c = '\r' then ['\\', 'r']
  else if c = '\t' then ['\\', 't']
  else if c = '\x08' then ['\\', 'b']
  else if c = '\x0c' then ['\\', 'f']
  else if c.toNat < 0x20 then
    ['\\', 'u', '0', '0', hexDigit (c.toNat / 16), hexDigit (c.toNat % 16)]
  else [c]

/-- The text between quotes. -/
def quoted (s : String) : String :=
  String.ofList ('"' :: s.toList.flatMap quotedChar ++ ['"'])

/-! ## Diagnostics -/

/-- The hexadecimal digits of a code point, without leading zeros. -/
def hexDigits (n : Nat) : List Char := Nat.toDigits 16 n

/-- The character is shown as its code point. -/
def isSpelledOut (c : Char) : Bool :=
  if c.toNat < 0x80 then c.toNat < 0x20 || c.toNat = 0x7F
  else inRanges extenderRanges c || inRanges unprintableRanges c

/-- The spelling of one character inside the quotes. -/
def diagnosticChar (c : Char) : List Char :=
  if c = '\x00' then ['\\', '0']
  else if c = '\t' then ['\\', 't']
  else if c = '\r' then ['\\', 'r']
  else if c = '\n' then ['\\', 'n']
  else if c = '"' then ['\\', '"']
  else if c = '\\' then ['\\', '\\']
  else if isSpelledOut c then ['\\', 'u', '\x7b'] ++ hexDigits c.toNat ++ ['\x7d']
  else [c]

/-- The text as a diagnostic shows it. -/
def diagnostic (s : String) : String :=
  String.ofList ('"' :: s.toList.flatMap diagnosticChar ++ ['"'])

end Workbench.Text
