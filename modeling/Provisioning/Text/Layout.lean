/-!
Columns of text.

Tables and report lines align their cells by padding on the right with
spaces to a width counted in characters; a cell already at least as wide is
written whole.
-/

namespace Provisioning.Text

/-- Pad on the right with spaces until the text is `width` characters long. -/
def padRight (s : String) (width : Nat) : String :=
  s ++ String.ofList (List.replicate (width - s.length) ' ')

/-- Join texts with a separator between each neighbouring pair. -/
def joinWith (sep : String) : List String → String
  | [] => ""
  | [s] => s
  | s :: rest => s ++ sep ++ joinWith sep rest

/-- Replace every occurrence of `pattern` in `s` by `by_`; an empty pattern changes nothing. -/
def replaceAll (s pattern by_ : String) : String :=
  if pattern.isEmpty then s else s.replace pattern by_

/-- Split a text after every newline, keeping the newline with its line; a final piece
without a newline is kept, and the empty text has no lines. -/
def linesInclusive (s : String) : List String :=
  let rec go : List Char → List Char → List String
    | [], [] => []
    | [], acc => [String.ofList acc.reverse]
    | c :: rest, acc =>
      if c = '\n' then String.ofList (c :: acc).reverse :: go rest []
      else go rest (c :: acc)
  go s.toList []

theorem padRight_length (s : String) (width : Nat) :
    (padRight s width).length = max s.length width := by
  simp only [padRight, String.length_append, String.length_ofList, List.length_replicate]
  omega

theorem joinWith_nil (sep : String) : joinWith sep [] = "" := rfl

end Provisioning.Text
