/-!
Quoted text for messages.

Some messages show a piece of text in double quotes with its special
characters escaped, so that blanks and controls stay visible: a quote and a
backslash get a backslash, tab, carriage return, newline and NUL get their
letter escapes, and a character that does not print on its own (a control,
a format character, a line or paragraph separator, a combining mark) is
written as `\u{hex}` with lowercase digits. Everything else, apostrophes and
non-ASCII letters included, stands as it is.
-/

namespace Provisioning.Text

/-- Lowercase hexadecimal digits of a number, without leading zeros. -/
def hexLower (n : Nat) : String :=
  String.ofList ((Nat.toDigits 16 n).map fun c => c.toLower)

/-- Characters that are written as `\u{...}` inside quoted text: they do not print on their
own, or they would attach to the character before them. -/
def isHiddenChar (c : Char) : Bool :=
  let n := c.toNat
  n < 0x20 || (0x7F ≤ n && n ≤ 0x9F) || n == 0xAD ||
    (0x300 ≤ n && n ≤ 0x36F) || (0x483 ≤ n && n ≤ 0x489) || (0x591 ≤ n && n ≤ 0x5BD) ||
    (0x600 ≤ n && n ≤ 0x605) || n == 0x61C || n == 0x6DD || n == 0x70F ||
    n == 0x180E || (0x200B ≤ n && n ≤ 0x200F) || (0x2028 ≤ n && n ≤ 0x202E) ||
    (0x2060 ≤ n && n ≤ 0x2064) || (0x2066 ≤ n && n ≤ 0x206F) ||
    (0x20D0 ≤ n && n ≤ 0x20F0) || (0xFE00 ≤ n && n ≤ 0xFE0F) ||
    (0xFE20 ≤ n && n ≤ 0xFE2F) || n == 0xFEFF || (0xFFF9 ≤ n && n ≤ 0xFFFB) ||
    (0xE000 ≤ n && n ≤ 0xF8FF) || (0xD800 ≤ n && n ≤ 0xDFFF) || n == 0xFFFE || n == 0xFFFF ||
    (0xE0000 ≤ n && n ≤ 0xE0FFF) || 0xF0000 ≤ n

/-- The escaped form of one character inside double-quoted text. -/
def quoteChar (c : Char) : String :=
  if c = '"' then "\\\""
  else if c = '\\' then "\\\\"
  else if c = '\n' then "\\n"
  else if c = '\r' then "\\r"
  else if c = '\t' then "\\t"
  else if c = '\x00' then "\\0"
  else if isHiddenChar c then "\\u\x7b" ++ hexLower c.toNat ++ "\x7d"
  else c.toString

/-- Text in double quotes with its special characters escaped. -/
def quoted (s : String) : String :=
  "\"" ++ String.join (s.toList.map quoteChar) ++ "\""

example : quoteChar 'a' = "a" := by decide

end Provisioning.Text
