/-!
# Shell patterns

The wildcard patterns of `case`, of `${name%pattern}` and of file names: `*`
matches any text, `?` one character, `[...]` one character of a set (`[!...]`
or `[^...]` one outside it), and every other character itself. A character
that was quoted is always itself, so a pattern is read from characters that
carry a flag saying whether they were quoted.
-/

namespace Provisioning.Shell

/-- One element of a pattern. -/
inductive Glob where
  /-- Any text, also empty. -/
  | star
  /-- Any one character. -/
  | one
  /-- One character from a set of ranges, or, when `negated`, one outside it. -/
  | set (negated : Bool) (ranges : List (Char × Char))
  /-- This character. -/
  | lit (c : Char)
  deriving DecidableEq, Repr, Inhabited

/-- Whether a character lies in one of the ranges. -/
def inRanges (ranges : List (Char × Char)) (c : Char) : Bool :=
  ranges.any fun (lo, hi) => lo ≤ c && c ≤ hi

/-- The ranges of a bracket expression, read up to its closing bracket; the
first character may be a closing bracket itself. -/
def bracketRanges : List (Char × Bool) → List (Char × Char) → Bool → Option (List (Char × Char) × List (Char × Bool))
  | [], _, _ => none
  | (']', false) :: rest, acc, false => some (acc, rest)
  | (lo, _) :: ('-', false) :: (hi, q) :: rest, acc, _ =>
    if hi == ']' && !q then some (acc ++ [(lo, lo), ('-', '-')], rest)
    else bracketRanges rest (acc ++ [(lo, hi)]) false
  | (c, _) :: rest, acc, _ => bracketRanges rest (acc ++ [(c, c)]) false

/-- The pattern written by characters with their quoting. A bracket that does
not close stands for itself. -/
def Glob.compile : List (Char × Bool) → List Glob
  | [] => []
  | ('*', false) :: rest => .star :: Glob.compile rest
  | ('?', false) :: rest => .one :: Glob.compile rest
  | ('[', false) :: rest =>
    let (negated, body) := match rest with
      | ('!', false) :: b => (true, b)
      | ('^', false) :: b => (true, b)
      | b => (false, b)
    match bracketRanges body [] true with
    | some (ranges, after) =>
      if after.length < rest.length then .set negated ranges :: Glob.compile after
      else .lit '[' :: Glob.compile rest
    | none => .lit '[' :: Glob.compile rest
  | (c, _) :: rest => .lit c :: Glob.compile rest
termination_by cs => cs.length
decreasing_by all_goals simp_wf <;> omega

/-- Whether a pattern matches a whole text. -/
def Glob.matches : List Glob → List Char → Bool
  | [], s => s.isEmpty
  | .star :: p, s => (List.range (s.length + 1)).any fun i => Glob.matches p (s.drop i)
  | .one :: p, _ :: s => Glob.matches p s
  | .set negated ranges :: p, c :: s => inRanges ranges c != negated && Glob.matches p s
  | .lit d :: p, c :: s => c == d && Glob.matches p s
  | _ :: _, [] => false

/-- Whether the characters, with their quoting, hold an unquoted wildcard, so
that they form a pattern and not a plain text. -/
def hasWildcard (cs : List (Char × Bool)) : Bool :=
  cs.any fun (c, q) => !q && (c == '*' || c == '?' || c == '[')

/-- Whether a pattern matches a text. -/
def patternMatches (pattern : List (Char × Bool)) (s : String) : Bool :=
  Glob.matches (Glob.compile pattern) s.toList

/-- The text with the shortest or longest start matching the pattern removed;
the text itself when no start matches. -/
def dropPrefix (pattern : List Glob) (s : List Char) (longest : Bool) : List Char :=
  let cuts := (List.range (s.length + 1)).filter fun i => Glob.matches pattern (s.take i)
  let pick := if longest then cuts.getLast? else cuts.head?
  match pick with
  | some i => s.drop i
  | none => s

/-- The text with the shortest or longest end matching the pattern removed;
the text itself when no end matches. -/
def dropSuffix (pattern : List Glob) (s : List Char) (longest : Bool) : List Char :=
  let cuts := (List.range (s.length + 1)).filter fun i => Glob.matches pattern (s.drop i)
  let pick := if longest then cuts.head? else cuts.getLast?
  match pick with
  | some i => s.take i
  | none => s

theorem matches_star (s : List Char) : Glob.matches [.star] s = true := by
  simp [Glob.matches, List.any_eq_true]
  exact ⟨s.length, by omega, by simp⟩

end Provisioning.Shell
