/-!
Blank characters and trimming.

A character is blank when Unicode gives it the White_Space property: the
ASCII controls from tab to carriage return, the space, the next-line
control, the no-break spaces and the typographic spaces of the General
Punctuation block. Names, scripts and host answers are compared after
trimming blanks from both ends, so this one table decides what counts as
empty text throughout the library.
-/

namespace Provisioning.Text

/-- Whether a character has Unicode's White_Space property. -/
def isBlank (c : Char) : Bool :=
  let n := c.toNat
  (0x09 ≤ n && n ≤ 0x0D) || n == 0x20 || n == 0x85 || n == 0xA0 || n == 0x1680 ||
    (0x2000 ≤ n && n ≤ 0x200A) || n == 0x2028 || n == 0x2029 || n == 0x202F ||
    n == 0x205F || n == 0x3000

/-- The text without its leading blanks. -/
def trimStart (s : String) : String :=
  String.ofList (s.toList.dropWhile isBlank)

/-- The text without its trailing blanks. -/
def trimEnd (s : String) : String :=
  String.ofList (s.toList.reverse.dropWhile isBlank).reverse

/-- The text without blanks at either end. -/
def trim (s : String) : String :=
  trimEnd (trimStart s)

/-- Whether the text holds nothing but blanks. -/
def isBlankText (s : String) : Bool :=
  s.toList.all isBlank

example : isBlank ' ' = true := rfl

/-- Every character that core counts as whitespace is blank here too. -/
theorem isBlank_of_isWhitespace (c : Char) (h : c.isWhitespace = true) : isBlank c = true := by
  simp only [Char.isWhitespace, Bool.or_eq_true, decide_eq_true_eq] at h
  simp only [isBlank, Bool.or_eq_true, Bool.and_eq_true, beq_iff_eq, decide_eq_true_eq]
  rcases h with ((h | h) | h) | h <;> subst h <;> decide

end Provisioning.Text
