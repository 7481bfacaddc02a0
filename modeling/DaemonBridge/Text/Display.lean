/-!
# Strings as messages show them

Messages quote a string between double quotes with the characters a reader could not see escaped:
the quote and the backslash, tab, carriage return, line feed and NUL by their short escapes, and
every other control, separator, format, private-use or combining character as `\u{hex}` with
lowercase digits. `Text.isShownEscaped` is that set of characters.
-/

namespace DaemonBridge.Text

/-- Ranges of code points, each written as inclusive bounds. -/
def escapedRanges : List (Nat × Nat) :=
  [ (0x00, 0x1F), (0x7F, 0xA0), (0xAD, 0xAD), (0x300, 0x36F), (0x483, 0x489), (0x591, 0x5BD),
    (0x600, 0x605), (0x61C, 0x61C), (0x6DD, 0x6DD), (0x70F, 0x70F), (0x1680, 0x1680),
    (0x180E, 0x180E), (0x2000, 0x200F), (0x2028, 0x202F), (0x205F, 0x2064), (0x2066, 0x206F),
    (0x20D0, 0x20F0), (0x3000, 0x3000), (0xD800, 0xF8FF), (0xFDD0, 0xFDEF), (0xFE00, 0xFE0F),
    (0xFE20, 0xFE2F), (0xFEFF, 0xFEFF), (0xFFF9, 0xFFFB), (0xFFFE, 0xFFFF), (0xE0001, 0xE0001),
    (0xE0020, 0xE007F), (0xE0100, 0xE01EF), (0xF0000, 0x10FFFF) ]

/-- Characters that a message shows as an escape rather than as themselves. -/
def isShownEscaped (c : Char) : Bool :=
  escapedRanges.any fun (lo, hi) => lo ≤ c.toNat ∧ c.toNat ≤ hi

/-- Lowercase hexadecimal digits of a number, without leading zeros. -/
def hexText (n : Nat) : List Char :=
  Nat.toDigits 16 n

/-- How one character is shown inside a quoted message string. -/
def displayChar (c : Char) : List Char :=
  if c = '"' then ['\\', '"']
  else if c = '\\' then ['\\', '\\']
  else if c = '\t' then ['\\', 't']
  else if c = '\r' then ['\\', 'r']
  else if c = '\n' then ['\\', 'n']
  else if c.toNat = 0 then ['\\', '0']
  else if isShownEscaped c then ['\\', 'u', '\x7b'] ++ hexText c.toNat ++ ['\x7d']
  else [c]

/-- A string quoted as messages show it. -/
def displayQuoted (s : String) : String :=
  String.ofList ('"' :: (s.toList.flatMap displayChar ++ ['"']))

example : displayQuoted "a\"b\n" = "\"a\\\"b\\n\"" := by decide
example : displayQuoted "\x01é" = "\"\\u\x7b1\x7dé\"" := by decide

end DaemonBridge.Text
