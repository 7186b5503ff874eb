/-!
Styled terminal text.

A piece of text carries a style: any of bold, dim and underline, and one of
the eight basic foreground colours. On a terminal that takes colour a styled
piece is written between a Select Graphic Rendition sequence and the reset
sequence `ESC[0m`; otherwise, and for a piece with no style at all, the text
is written as it is. A styled piece is wrapped even when its text is empty.

Two spellings of the opening sequence are in use, and both are kept: every
attribute in one sequence, separated by `;` (`ESC[1;31m`), or one sequence
per attribute (`ESC[1mESC[31m`). Attributes come in the order bold, dim,
underline, colour.

Padding a styled cell pads its text, inside the sequences, so that columns
line up the same with and without colour.

## Main statements

* `render_plain` — without colour, a styled text is the concatenation of its
  pieces.
-/

namespace Provisioning.Text

/-- The eight basic terminal colours. -/
inductive Color where
  | black | red | green | yellow | blue | magenta | cyan | white
  deriving DecidableEq, Repr

/-- The foreground code of a colour. -/
def Color.code : Color → Nat
  | .black => 30
  | .red => 31
  | .green => 32
  | .yellow => 33
  | .blue => 34
  | .magenta => 35
  | .cyan => 36
  | .white => 37

/-- How a piece of text looks. -/
structure Style where
  bold : Bool := false
  dim : Bool := false
  underline : Bool := false
  color : Option Color := none
  deriving DecidableEq, Repr

namespace Style

/-- No attribute at all. -/
def plain : Style := {}

/-- Bold text. -/
def strong : Style := { bold := true }

/-- Dim text. -/
def faint : Style := { dim := true }

/-- Text in a colour. -/
def colored (c : Color) : Style := { color := some c }

/-- Bold text in a colour. -/
def strongColored (c : Color) : Style := { bold := true, color := some c }

/-- Whether the style changes nothing. -/
def isPlain (s : Style) : Bool := s == {}

/-- The codes of the style's attributes, in order. -/
def codes (s : Style) : List Nat :=
  (if s.bold then [1] else []) ++ (if s.dim then [2] else []) ++ (if s.underline then [4] else []) ++
    (s.color.map Color.code).toList

end Style

/-- How styles reach the terminal. -/
inductive Palette where
  /-- No colour: text as it is. -/
  | none
  /-- One sequence holding every attribute. -/
  | combined
  /-- One sequence for each attribute. -/
  | separate
  deriving DecidableEq, Repr

/-- The escape sequence that ends a styled piece. -/
def resetSequence : String := "\x1b[0m"

/-- The escape sequence that starts a piece in a style. -/
def Style.opening (s : Style) : Palette → String
  | .none => ""
  | .combined => "\x1b[" ++ ";".intercalate (s.codes.map toString) ++ "m"
  | .separate => String.join (s.codes.map fun c => "\x1b[" ++ toString c ++ "m")

/-- Text in a style, as written with a palette. -/
def paint (p : Palette) (s : Style) (text : String) : String :=
  if p == .none || s.isPlain then text else s.opening p ++ text ++ resetSequence

/-- Text made of styled pieces. -/
abbrev Styled := List (Style × String)

namespace Styled

/-- Unstyled text. -/
def text (s : String) : Styled := [(Style.plain, s)]

/-- Text in one style. -/
def styled (st : Style) (s : String) : Styled := [(st, s)]

/-- The text without its styles. -/
def toText (t : Styled) : String := String.join (t.map (·.2))

/-- The width of the text in characters. -/
def width (t : Styled) : Nat := t.toText.length

/-- Write the text with a palette. -/
def render (p : Palette) (t : Styled) : String := String.join (t.map fun (s, x) => paint p s x)

/-- Join texts with a separator between each neighbouring pair. -/
def joinWith (sep : Styled) : List Styled → Styled
  | [] => []
  | [t] => t
  | t :: rest => t ++ sep ++ joinWith sep rest

/-- Drop trailing blanks and line breaks from the end of the text. -/
def trimEnd (t : Styled) : Styled :=
  let rec go : List (Style × String) → List (Style × String)
    | [] => []
    | (s, x) :: rest =>
      let x' := String.ofList ((x.toList.reverse.dropWhile fun c => c == ' ' || c == '\n').reverse)
      if x'.isEmpty then go rest else (s, x') :: rest
  (go t.reverse).reverse

end Styled

theorem paint_none (s : Style) (text : String) : paint .none s text = text := by
  simp [paint]

theorem render_plain (t : Styled) : t.render .none = t.toText := by
  simp [Styled.render, Styled.toText, paint_none]

end Provisioning.Text
