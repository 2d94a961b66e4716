import Historian.Text.Invisible

/-!
Quoted text for messages. A text stands between double quotes and a character between single ones;
the quote itself, the backslash, line ends, tabs, NUL and invisible characters are written as
escapes, so that a reader sees exactly which characters a message is about.
-/
namespace Historian.Text

/-- A code point as an escape, such as `\u{7f}`. -/
def codePointEscape (c : Char) : List Char :=
  "\\u\x7b".toList ++ Nat.toDigits 16 c.toNat ++ ['\x7d']

/-- One character between quotes of the kind `quote`. -/
def quotedChar (quote : Char) (c : Char) : List Char :=
  if c = quote ∨ c = '\\' then ['\\', c]
  else if c = '\x00' then ['\\', '0']
  else if c = '\t' then ['\\', 't']
  else if c = '\n' then ['\\', 'n']
  else if c = '\r' then ['\\', 'r']
  else if isInvisible c then codePointEscape c
  else [c]

/-- A text between double quotes. -/
def quoted (s : String) : String :=
  "\"" ++ String.ofList (s.toList.flatMap (quotedChar '"')) ++ "\""

/-- A character between single quotes. -/
def quotedOne (c : Char) : String :=
  "'" ++ String.ofList (quotedChar '\'' c) ++ "'"

end Historian.Text
