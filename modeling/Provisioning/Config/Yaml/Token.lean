/-!
# YAML tokens

The first stage of reading YAML: the text becomes a stream of tokens, each
with the place it starts and ends (character index, line and column, all
from 0; the index counts UTF-8 bytes).

Indentation is made explicit: a block mapping or sequence opens with a
start token when a line is indented deeper than the enclosing block, and
every block still open is closed by an end token when a line comes back
to a lesser indentation. A key of a block mapping is only known to be one
when its `:` is found, so the place where a scalar starts is remembered as
a possible key until then: on the `:`, a key token (and, if needed, the
start of a mapping) is inserted before it. A possible key must be on one
line and less than 1024 characters long, and a key that has to be one (it
starts a line at the block's indentation) but has no `:` is an error.

Tokens are produced on demand: the parser asks for the next token, and the
scanner reads as much as it needs to know that no key token will be
inserted in front of it. An error is reported when reading reaches it, so
the parser sees every token before it.
-/

namespace Provisioning.Yaml

/-- A place in the text: the byte index, and the line and column (characters), from 0. -/
structure Mark where
  index : Nat := 0
  line : Nat := 0
  column : Nat := 0
  deriving Inhabited, BEq, Repr

/-- How a mark is written in messages, counting lines and columns from 1. -/
def Mark.text (m : Mark) : String :=
  "line " ++ toString (m.line + 1) ++ " column " ++ toString (m.column + 1)

/-- Whether a mark is at the very start of the text. -/
def Mark.isStart (m : Mark) : Bool := m.line == 0 && m.column == 0

/-- A syntax error: what went wrong and where, and what was being read and from where. -/
structure Problem where
  problem : String
  mark : Mark := {}
  /-- For an error found before any place is known: the byte offset. -/
  offset : Nat := 0
  context : Option (String × Mark) := none
  deriving Inhabited

/-- How a syntax error is shown. -/
def Problem.text (p : Problem) : String :=
  let head := p.problem ++
    (if !p.mark.isStart then " at " ++ p.mark.text
     else if p.offset != 0 then " at position " ++ toString p.offset else "")
  match p.context with
  | none => head
  | some (ctx, m) =>
    head ++ ", " ++ ctx ++ (if !m.isStart && !(m.line == p.mark.line && m.column == p.mark.column) then " at " ++ m.text else "")

/-- How a scalar was written. -/
inductive ScalarStyle where
  | plain
  | single
  | double
  | literal
  | folded
  deriving Inhabited, BEq, Repr

/-- The kinds of tokens. -/
inductive TokenKind where
  | streamStart
  | streamEnd
  | directive
  | documentStart
  | documentEnd
  | blockSequenceStart
  | blockMappingStart
  | blockEnd
  | flowSequenceStart
  | flowSequenceEnd
  | flowMappingStart
  | flowMappingEnd
  | blockEntry
  | flowEntry
  | key
  | value
  | alias (name : String)
  | anchor (name : String)
  | tag (handle suffix : String)
  | scalar (text : String) (style : ScalarStyle)
  deriving Inhabited, BEq, Repr

/-- A token and the stretch of text it covers. -/
structure Token where
  kind : TokenKind
  start : Mark
  stop : Mark
  deriving Inhabited, Repr

/-- A place where a key may have started. -/
structure KeyCandidate where
  possible : Bool := false
  /-- Whether the place must turn out to be a key. -/
  required : Bool := false
  /-- The number of the token that would follow the key token. -/
  tokenNumber : Nat := 0
  mark : Mark := {}
  deriving Inhabited

/-- Line breaks: line feed, carriage return, next line, line and paragraph separators. -/
def isBreak (c : Char) : Bool :=
  c == '\n' || c == '\r' || c.toNat == 0x85 || c.toNat == 0x2028 || c.toNat == 0x2029

/-- Spaces and tabs. -/
def isBlank (c : Char) : Bool := c == ' ' || c == '\t'

/-- Characters of anchor and alias names. -/
def isWordChar (c : Char) : Bool := c.isAlphanum || c == '-' || c == '_'

/-- Characters allowed anywhere in a YAML text. -/
def isAllowed (c : Char) : Bool :=
  let n := c.toNat
  n == 0x09 || n == 0x0A || n == 0x0D || (0x20 ≤ n && n ≤ 0x7E) || n == 0x85 ||
    (0xA0 ≤ n && n ≤ 0xD7FF) || (0xE000 ≤ n && n ≤ 0xFFFD) || 0x10000 ≤ n

/-- The state of the scanner. -/
structure Scanner where
  rest : List Char
  mark : Mark
  /-- Tokens read but not yet taken, the next one first. -/
  queue : List Token := []
  /-- How many tokens have been taken. -/
  taken : Nat := 0
  indent : Int := -1
  indents : List Int := []
  keyAllowed : Bool := false
  /-- One candidate per open flow collection, and one for the block level (last). -/
  candidates : List KeyCandidate := []
  flowLevel : Nat := 0
  started : Bool := false
  ended : Bool := false
  deriving Inhabited

namespace Scanner

/-- The character `k` places ahead. -/
def ahead (s : Scanner) (k : Nat) : Option Char := s.rest[k]?

/-- Whether the character `k` places ahead is `c`. -/
def sees (s : Scanner) (k : Nat) (c : Char) : Bool := s.ahead k == some c

/-- Whether the text ends `k` places ahead. -/
def endsAt (s : Scanner) (k : Nat) : Bool := (s.ahead k).isNone

/-- Whether a blank is `k` places ahead. -/
def blankAt (s : Scanner) (k : Nat) : Bool := (s.ahead k).any isBlank

/-- Whether a line break is `k` places ahead. -/
def breakAt (s : Scanner) (k : Nat) : Bool := (s.ahead k).any isBreak

/-- Whether a line break or the end is `k` places ahead. -/
def breakzAt (s : Scanner) (k : Nat) : Bool := s.breakAt k || s.endsAt k

/-- Whether a blank, a line break or the end is `k` places ahead. -/
def blankzAt (s : Scanner) (k : Nat) : Bool := s.blankAt k || s.breakzAt k

/-- Move past one character of a line. -/
def skip (s : Scanner) : Scanner :=
  match s.rest with
  | c :: r => { s with rest := r, mark := { s.mark with index := s.mark.index + c.utf8Size, column := s.mark.column + 1 } }
  | [] => s

/-- Move past a line break, a carriage return and line feed counting as one. -/
def skipLine (s : Scanner) : Scanner :=
  match s.rest with
  | '\r' :: '\n' :: r => { s with rest := r, mark := ⟨s.mark.index + 2, s.mark.line + 1, 0⟩ }
  | c :: r => if isBreak c then { s with rest := r, mark := ⟨s.mark.index + c.utf8Size, s.mark.line + 1, 0⟩ } else s
  | [] => s

/-- Move past a line break, giving the break as it reads: carriage returns and next-line
characters become line feeds. -/
def readLine (s : Scanner) : Scanner × Char :=
  match s.rest with
  | c :: _ => (s.skipLine, if c == '\r' || c.toNat == 0x85 then '\n' else c)
  | [] => (s, '\n')

/-- Add a token at the end of the queue. -/
def push (s : Scanner) (kind : TokenKind) (start stop : Mark) : Scanner :=
  { s with queue := s.queue ++ [⟨kind, start, stop⟩] }

/-- Insert a token into the queue so that it becomes token number `number`. -/
def insertAt (s : Scanner) (number : Nat) (t : Token) : Scanner :=
  let i := number - s.taken
  { s with queue := s.queue.take i ++ [t] ++ s.queue.drop i }

/-- The candidate of the innermost level. -/
def candidate (s : Scanner) : KeyCandidate := s.candidates.headD {}

/-- Replace the candidate of the innermost level. -/
def setCandidate (s : Scanner) (k : KeyCandidate) : Scanner :=
  { s with candidates := k :: s.candidates.drop 1 }

/-- An error while scanning. -/
def fail {α : Type} (s : Scanner) (context : Option (String × Mark)) (problem : String) : Except Problem α :=
  .error { problem, mark := s.mark, context }

/-- Forget candidates that can no longer be keys: those on an earlier line or too far back.
Such a candidate that had to be a key is an error. -/
def dropStale (s : Scanner) : Except Problem Scanner := do
  let cs ← s.candidates.mapM fun k =>
    if k.possible && (k.mark.line < s.mark.line || k.mark.index + 1024 < s.mark.index) then
      if k.required then s.fail (some ("while scanning a simple key", k.mark)) "could not find expected ':'"
      else pure { k with possible := false }
    else pure k
  pure { s with candidates := cs }

/-- Forget the candidate of the innermost level; one that had to be a key is an error. -/
def dropCandidate (s : Scanner) : Except Problem Scanner :=
  let k := s.candidate
  if k.possible && k.required then s.fail (some ("while scanning a simple key", k.mark)) "could not find expected ':'"
  else pure (s.setCandidate { k with possible := false })

/-- Remember the current place as a possible key, if a key may start here. -/
def saveCandidate (s : Scanner) : Except Problem Scanner := do
  if s.keyAllowed then
    let required := s.flowLevel == 0 && s.indent == (s.mark.column : Int)
    let k : KeyCandidate := { possible := true, required, tokenNumber := s.taken + s.queue.length, mark := s.mark }
    let s ← s.dropCandidate
    pure (s.setCandidate k)
  else pure s

/-- Close every block indented deeper than `column`. -/
def unrollIndent (s : Scanner) (column : Int) : Scanner :=
  if s.flowLevel != 0 then s else
  let rec go : Nat → Scanner → Scanner
    | 0, s => s
    | fuel + 1, s =>
      if s.indent > column then
        let s := s.push .blockEnd s.mark s.mark
        go fuel { s with indent := s.indents.headD (-1), indents := s.indents.drop 1 }
      else s
  go (s.indents.length + 1) s

/-- Open a block at `column` if it is deeper than the current one, with a start token that
becomes token `number` (or goes last when there is no number). -/
def rollIndent (s : Scanner) (column : Int) (number : Option Nat) (kind : TokenKind) (mark : Mark) : Scanner :=
  if s.flowLevel != 0 || s.indent ≥ column then s else
  let s := { s with indents := s.indent :: s.indents, indent := column }
  match number with
  | none => s.push kind mark mark
  | some n => s.insertAt n ⟨kind, mark, mark⟩

/-- Skip blanks, comments and line breaks up to the next token. Tabs are skipped only where no
key may start (inside flow collections, or after a key's indicator on the same line). -/
def toNextToken : Nat → Scanner → Scanner
  | 0, s => s
  | fuel + 1, s =>
    let s := if s.mark.column == 0 && s.ahead 0 == some (Char.ofNat 0xFEFF) then s.skip else s
    let s := skipBlanks s.rest.length s
    let s := if s.sees 0 '#' then skipComment s.rest.length s else s
    if s.breakAt 0 then
      let s := s.skipLine
      toNextToken fuel (if s.flowLevel == 0 then { s with keyAllowed := true } else s)
    else s
where
  skipBlanks : Nat → Scanner → Scanner
    | 0, s => s
    | n + 1, s =>
      if s.sees 0 ' ' || ((s.flowLevel != 0 || !s.keyAllowed) && s.sees 0 '\t') then skipBlanks n s.skip else s
  skipComment : Nat → Scanner → Scanner
    | 0, s => s
    | n + 1, s => if s.breakzAt 0 then s else skipComment n s.skip

/-- The stream's start. -/
def fetchStreamStart (s : Scanner) : Scanner :=
  let s := { s with indent := -1, candidates := [{}], keyAllowed := true, started := true }
  s.push .streamStart s.mark s.mark

/-- The stream's end, closing every open block. -/
def fetchStreamEnd (s : Scanner) : Except Problem Scanner := do
  let s := if s.mark.column != 0 then { s with mark := { s.mark with column := 0, line := s.mark.line + 1 } } else s
  let s := s.unrollIndent (-1)
  let s ← s.dropCandidate
  let s := { s with keyAllowed := false, ended := true }
  pure (s.push .streamEnd s.mark s.mark)

/-- A directive line, kept as one token. -/
def fetchDirective (s : Scanner) : Except Problem Scanner := do
  let s := s.unrollIndent (-1)
  let s ← s.dropCandidate
  let start := s.mark
  let rec go : Nat → Scanner → Scanner
    | 0, s => s
    | n + 1, s => if s.breakzAt 0 then s else go n s.skip
  let s := go s.rest.length { s with keyAllowed := false }
  pure (s.push .directive start s.mark)

/-- `---` or `...` at the start of a line. -/
def fetchDocumentIndicator (s : Scanner) (kind : TokenKind) : Except Problem Scanner := do
  let s := s.unrollIndent (-1)
  let s ← s.dropCandidate
  let start := s.mark
  let s := { s with keyAllowed := false }.skip.skip.skip
  pure (s.push kind start s.mark)

/-- `[` or `{`. -/
def fetchFlowStart (s : Scanner) (kind : TokenKind) : Except Problem Scanner := do
  let s ← s.saveCandidate
  let s := { s with candidates := {} :: s.candidates, flowLevel := s.flowLevel + 1, keyAllowed := true }
  let start := s.mark
  let s := s.skip
  pure (s.push kind start s.mark)

/-- `]` or `}`. -/
def fetchFlowEnd (s : Scanner) (kind : TokenKind) : Except Problem Scanner := do
  let s ← s.dropCandidate
  let s := if s.flowLevel != 0 then { s with flowLevel := s.flowLevel - 1, candidates := s.candidates.drop 1 } else s
  let s := { s with keyAllowed := false }
  let start := s.mark
  let s := s.skip
  pure (s.push kind start s.mark)

/-- `,` inside a flow collection. -/
def fetchFlowEntry (s : Scanner) : Except Problem Scanner := do
  let s ← s.dropCandidate
  let s := { s with keyAllowed := true }
  let start := s.mark
  let s := s.skip
  pure (s.push .flowEntry start s.mark)

/-- `-` starting an entry of a block sequence. -/
def fetchBlockEntry (s : Scanner) : Except Problem Scanner := do
  let s ← if s.flowLevel == 0 then
      if !s.keyAllowed then s.fail none "block sequence entries are not allowed in this context"
      else pure (s.rollIndent s.mark.column none .blockSequenceStart s.mark)
    else pure s
  let s ← s.dropCandidate
  let s := { s with keyAllowed := true }
  let start := s.mark
  let s := s.skip
  pure (s.push .blockEntry start s.mark)

/-- `?` starting a complex key. -/
def fetchKey (s : Scanner) : Except Problem Scanner := do
  let s ← if s.flowLevel == 0 then
      if !s.keyAllowed then s.fail none "mapping keys are not allowed in this context"
      else pure (s.rollIndent s.mark.column none .blockMappingStart s.mark)
    else pure s
  let s ← s.dropCandidate
  let s := { s with keyAllowed := s.flowLevel == 0 }
  let start := s.mark
  let s := s.skip
  pure (s.push .key start s.mark)

/-- `:` after a key: the remembered candidate, if any, becomes a key token. -/
def fetchValue (s : Scanner) : Except Problem Scanner := do
  let k := s.candidate
  let s ← if k.possible then
      let s := s.insertAt k.tokenNumber ⟨.key, k.mark, k.mark⟩
      let s := s.rollIndent k.mark.column (some k.tokenNumber) .blockMappingStart k.mark
      pure { s.setCandidate { k with possible := false } with keyAllowed := false }
    else if s.flowLevel == 0 then
      if !s.keyAllowed then s.fail none "mapping values are not allowed in this context"
      else pure { s.rollIndent s.mark.column none .blockMappingStart s.mark with keyAllowed := true }
    else pure { s with keyAllowed := false }
  let start := s.mark
  let s := s.skip
  pure (s.push .value start s.mark)

/-- An anchor `&name` or an alias `*name`. -/
def fetchAnchor (s : Scanner) (isAlias : Bool) : Except Problem Scanner := do
  let s ← s.saveCandidate
  let s := { s with keyAllowed := false }
  let start := s.mark
  let t := s.skip
  let name := t.rest.takeWhile isWordChar
  let t := (List.range name.length).foldl (fun t _ => t.skip) t
  let ok := t.blankzAt 0 || [some '?', some ':', some ',', some ']', some '\x7d', some '%', some '@', some '`'].contains (t.ahead 0)
  if name.isEmpty || !ok then
    t.fail (some (if isAlias then "while scanning an alias" else "while scanning an anchor", start))
      "did not find expected alphabetic or numeric character"
  else
    let n := String.ofList name
    pure (t.push (if isAlias then .alias n else .anchor n) start t.mark)

/-- A tag: `!`, `!suffix`, `!!suffix`, `!handle!suffix` or `!<verbatim>`. -/
def fetchTag (s : Scanner) : Except Problem Scanner := do
  let s ← s.saveCandidate
  let s := { s with keyAllowed := false }
  let start := s.mark
  let isTagChar (c : Char) : Bool := !isBlank c && !isBreak c && c != ',' && c != '[' && c != ']' &&
    c != '\x7b' && c != '\x7d'
  let (handle, suffix, t) :=
    if s.sees 1 '<' then
      let body := (s.rest.drop 2).takeWhile (· != '>')
      let t := (List.range (body.length + 3)).foldl (fun t _ => t.skip) s
      ("", String.ofList body, t)
    else
      let word := (s.rest.drop 1).takeWhile isTagChar
      let t := (List.range (word.length + 1)).foldl (fun t _ => t.skip) s
      match word.idxOf? '!' with
      | some i => ("!" ++ String.ofList (word.take (i + 1)), String.ofList (word.drop (i + 1)), t)
      | none => if word.isEmpty then ("", "!", t) else ("!", String.ofList word, t)
  if !(t.blankzAt 0) && !(t.flowLevel != 0 && t.sees 0 ',') then
    t.fail (some ("while scanning a tag", start)) "did not find expected whitespace or line break"
  else pure (t.push (.tag handle suffix) start t.mark)

/-- Line breaks and indentation before the content of a block scalar; fixes the indentation
when it is not given. -/
def blockBreaks (start : Mark) (indent : Nat) : Nat → Scanner → List Char → Mark →
    Except Problem (Scanner × Nat × List Char × Mark)
  | 0, s, breaks, stop => .ok (s, indent, breaks, stop)
  | fuel + 1, s, breaks, stop =>
    let rec spaces : Nat → Scanner → Scanner
      | 0, s => s
      | n + 1, s => if (indent == 0 || s.mark.column < indent) && s.sees 0 ' ' then spaces n s.skip else s
    let s := spaces s.rest.length s
    if (indent == 0 || s.mark.column < indent) && s.sees 0 '\t' then
      s.fail (some ("while scanning a block scalar", start)) "found a tab character where an indentation space is expected"
    else if s.breakAt 0 then
      let (s, b) := s.readLine
      blockBreaks start indent fuel s (breaks ++ [b]) s.mark
    else .ok (s, indent, breaks, stop)

/-- The widest indentation of the empty lines before a block scalar's content. -/
def leadingWidth : Nat → Scanner → Nat → Nat
  | 0, _, w => w
  | fuel + 1, s, w =>
    let sp := (s.rest.takeWhile (· == ' ')).length
    let after := s.rest.drop sp
    let w := max w (s.mark.column + sp)
    match after with
    | c :: _ =>
      if isBreak c then
        let t := (List.range sp).foldl (fun t _ => t.skip) s
        leadingWidth fuel t.skipLine w
      else w
    | [] => w

/-- A literal (`|`) or folded (`>`) block scalar. -/
def fetchBlockScalar (s : Scanner) (literal : Bool) : Except Problem Scanner := do
  let s ← s.dropCandidate
  let s := { s with keyAllowed := true }
  let start := s.mark
  let s := s.skip
  let digit (c : Option Char) : Option Nat := c.bind fun c => if c.isDigit then some (c.toNat - 48) else none
  let chompOf (c : Option Char) : Option Int := if c == some '+' then some 1 else if c == some '-' then some (-1) else none
  let (chomp, increment, s) ← (do
    match chompOf (s.ahead 0) with
    | some ch =>
      let s := s.skip
      match digit (s.ahead 0) with
      | some 0 => s.fail (some ("while scanning a block scalar", start)) "found an indentation indicator equal to 0"
      | some d => pure (ch, d, s.skip)
      | none => pure (ch, 0, s)
    | none =>
      match digit (s.ahead 0) with
      | some 0 => s.fail (some ("while scanning a block scalar", start)) "found an indentation indicator equal to 0"
      | some d =>
        let s := s.skip
        match chompOf (s.ahead 0) with
        | some ch => pure (ch, d, s.skip)
        | none => pure (0, d, s)
      | none => pure (0, 0, s) : Except Problem (Int × Nat × Scanner))
  let s := (List.range (s.rest.takeWhile isBlank).length).foldl (fun t _ => t.skip) s
  let s := if s.sees 0 '#' then
      (List.range (s.rest.takeWhile (fun c => !isBreak c)).length).foldl (fun t _ => t.skip) s
    else s
  if !s.breakzAt 0 then
    s.fail (some ("while scanning a block scalar", start)) "did not find expected comment or line break"
  else
  let s := if s.breakAt 0 then s.skipLine else s
  let stop := s.mark
  let indent : Nat := if increment != 0 then (if s.indent ≥ 0 then s.indent.toNat + increment else increment) else 0
  let indent := if indent == 0 then max (max (leadingWidth s.rest.length s 0) (s.indent + 1).toNat) 1 else indent
  let (s, indent, trailing, stop) ← blockBreaks start indent s.rest.length s [] stop
  let rec body : Nat → Scanner → List Char → List Char → List Char → Bool → Mark →
      Except Problem (Scanner × List Char × List Char × List Char × Mark)
    | 0, s, acc, leading, trailing, _, stop => .ok (s, acc, leading, trailing, stop)
    | fuel + 1, s, acc, leading, trailing, leadingBlank, stop =>
      if s.mark.column == indent && !s.endsAt 0 then
        let trailingBlank := s.blankAt 0
        let acc := if !literal && leading.head? == some '\n' && !leadingBlank && !trailingBlank then
            (if trailing.isEmpty then acc ++ [' '] else acc)
          else acc ++ leading
        let acc := acc ++ trailing
        let leadingBlank := s.blankAt 0
        let line := s.rest.takeWhile fun c => !isBreak c
        let s := (List.range line.length).foldl (fun t _ => t.skip) s
        let acc := acc ++ line
        let (s, leading) := if s.breakAt 0 then (let (t, b) := s.readLine; (t, [b])) else (s, [])
        match blockBreaks start indent s.rest.length s [] stop with
        | .error e => .error e
        | .ok (s, _, trailing, stop) => body fuel s acc leading trailing leadingBlank stop
      else .ok (s, acc, leading, trailing, stop)
  let (s, acc, leading, trailing, stop) ← body (s.rest.length + 1) s [] [] trailing false stop
  let acc := if chomp != -1 then acc ++ leading else acc
  let acc := if chomp == 1 then acc ++ trailing else acc
  pure (s.push (.scalar (String.ofList acc) (if literal then .literal else .folded)) start stop)

/-- Whether the text at `s` is `---` or `...` at the start of a line, followed by a blank. -/
def atDocumentIndicator (s : Scanner) : Bool :=
  s.mark.column == 0 && ((s.sees 0 '-' && s.sees 1 '-' && s.sees 2 '-') || (s.sees 0 '.' && s.sees 1 '.' && s.sees 2 '.')) &&
    s.blankzAt 3

/-- The text of a hexadecimal digit. -/
def hexValue (c : Char) : Nat :=
  if c.isDigit then c.toNat - 48 else if 'a' ≤ c && c ≤ 'f' then c.toNat - 87 else c.toNat - 55

/-- Whether a character is a hexadecimal digit. -/
def isHex (c : Char) : Bool := c.isDigit || ('a' ≤ c && c ≤ 'f') || ('A' ≤ c && c ≤ 'F')

/-- Join the blanks and breaks between two runs of a scalar: a single line feed folds into a
space, more line feeds keep all but the first. -/
def joinBreaks (acc : List Char) (leadingBlanks : Bool) (spaces leading trailing : List Char) : List Char :=
  if leadingBlanks then
    if leading.head? == some '\n' then
      if trailing.isEmpty then acc ++ [' '] else acc ++ trailing
    else acc ++ leading ++ trailing
  else acc ++ spaces

/-- A single- or double-quoted scalar. -/
def fetchQuoted (s : Scanner) (single : Bool) : Except Problem Scanner := do
  let s ← s.saveCandidate
  let s := { s with keyAllowed := false }
  let start := s.mark
  let quote := if single then '\'' else '"'
  let ctx := some ("while scanning a quoted scalar", start)
  let escCtx := some ("while parsing a quoted scalar", start)
  -- the characters of one line, up to a blank, a break, the closing quote or an escaped break
  let rec chars : Nat → Scanner → List Char → Except Problem (Scanner × List Char × Bool)
    | 0, s, acc => .ok (s, acc, false)
    | fuel + 1, s, acc =>
      if s.blankzAt 0 then .ok (s, acc, false)
      else if single && s.sees 0 '\'' && s.sees 1 '\'' then chars fuel s.skip.skip (acc ++ ['\''])
      else if s.sees 0 quote then .ok (s, acc, false)
      else if !single && s.sees 0 '\\' && s.breakAt 1 then .ok (s.skip.skipLine, acc, true)
      else if !single && s.sees 0 '\\' then
        let simple : Option (List Char) := match s.ahead 1 with
          | some '0' => some [Char.ofNat 0]
          | some 'a' => some [Char.ofNat 7]
          | some 'b' => some [Char.ofNat 8]
          | some 't' | some '\t' => some ['\t']
          | some 'n' => some ['\n']
          | some 'v' => some [Char.ofNat 11]
          | some 'f' => some [Char.ofNat 12]
          | some 'r' => some ['\r']
          | some 'e' => some [Char.ofNat 27]
          | some ' ' => some [' ']
          | some '"' => some ['"']
          | some '/' => some ['/']
          | some '\\' => some ['\\']
          | some 'N' => some [Char.ofNat 0x85]
          | some '_' => some [Char.ofNat 0xA0]
          | some 'L' => some [Char.ofNat 0x2028]
          | some 'P' => some [Char.ofNat 0x2029]
          | _ => none
        match simple with
        | some cs => chars fuel s.skip.skip (acc ++ cs)
        | none =>
          let width : Nat := match s.ahead 1 with
            | some 'x' => 2
            | some 'u' => 4
            | some 'U' => 8
            | _ => 0
          if width == 0 then s.fail escCtx "found unknown escape character"
          else
            let t := s.skip.skip
            let digits := t.rest.take width
            if digits.length < width || !digits.all isHex then
              t.fail escCtx "did not find expected hexdecimal number"
            else
              let code := digits.foldl (fun n d => n * 16 + hexValue d) 0
              if (0xD800 ≤ code && code ≤ 0xDFFF) || code > 0x10FFFF then
                t.fail escCtx "found invalid Unicode character escape code"
              else chars fuel ((List.range width).foldl (fun t _ => t.skip) t) (acc ++ [Char.ofNat code])
      else
        match s.rest with
        | c :: _ => chars fuel s.skip (acc ++ [c])
        | [] => .ok (s, acc, false)
  -- blanks and breaks after a line's characters
  let rec gaps : Nat → Scanner → Bool → List Char → List Char → List Char →
      Scanner × Bool × List Char × List Char × List Char
    | 0, s, lb, sp, lead, trail => (s, lb, sp, lead, trail)
    | fuel + 1, s, lb, sp, lead, trail =>
      match s.rest with
      | c :: _ =>
        if isBlank c then
          if lb then gaps fuel s.skip lb sp lead trail else gaps fuel s.skip lb (sp ++ [c]) lead trail
        else if isBreak c then
          let (t, b) := s.readLine
          if lb then gaps fuel t lb sp lead (trail ++ [b]) else gaps fuel t true [] [b] trail
        else (s, lb, sp, lead, trail)
      | [] => (s, lb, sp, lead, trail)
  let rec lines : Nat → Scanner → List Char → Except Problem (Scanner × List Char)
    | 0, s, acc => .ok (s, acc)
    | fuel + 1, s, acc =>
      if s.atDocumentIndicator then s.fail ctx "found unexpected document indicator"
      else if s.endsAt 0 then s.fail ctx "found unexpected end of stream"
      else
        match chars s.rest.length s acc with
        | .error e => .error e
        | .ok (s, acc, escapedBreak) =>
          if s.sees 0 quote then .ok (s, acc)
          else
            let (s, lb, sp, lead, trail) := gaps s.rest.length s escapedBreak [] [] []
            let acc := if escapedBreak && lead.isEmpty then acc ++ trail
              else joinBreaks acc lb sp lead trail
            lines fuel s acc
  let (s, acc) ← lines (s.rest.length + 1) s.skip []
  let s := s.skip
  pure (s.push (.scalar (String.ofList acc) (if single then .single else .double)) start s.mark)

/-- Whether a plain scalar may start with the next character. -/
def startsPlain (s : Scanner) : Bool :=
  let indicators := ['-', '?', ':', ',', '[', ']', '\x7b', '\x7d', '#', '&', '*', '!', '|', '>', '\'', '"', '%', '@', '`']
  match s.ahead 0 with
  | none => false
  | some c =>
    !(s.blankzAt 0 || indicators.contains c) ||
      (c == '-' && !s.blankAt 1) ||
      (s.flowLevel == 0 && (c == '?' || c == ':') && !s.blankzAt 1)

/-- A plain scalar, possibly over several lines. -/
def fetchPlain (s : Scanner) : Except Problem Scanner := do
  let s ← s.saveCandidate
  let s := { s with keyAllowed := false }
  let start := s.mark
  let indent : Int := s.indent + 1
  let flowStop := [',', '?', '[', ']', '\x7b', '\x7d']
  -- the non-blank characters of one run
  let rec run : Nat → Scanner → List Char → Bool → List Char → List Char → List Char → Mark →
      Scanner × List Char × Bool × List Char × List Char × List Char × Mark
    | 0, s, acc, lb, sp, lead, trail, stop => (s, acc, lb, sp, lead, trail, stop)
    | fuel + 1, s, acc, lb, sp, lead, trail, stop =>
      if s.blankzAt 0 then (s, acc, lb, sp, lead, trail, stop)
      else if s.flowLevel != 0 && s.sees 0 ':' && (s.ahead 1).any flowStop.contains then
        (s, acc, lb, sp, lead, trail, stop)
      else if (s.sees 0 ':' && s.blankzAt 1) ||
          (s.flowLevel != 0 && ((s.ahead 0).any fun c => [',', '[', ']', '\x7b', '\x7d'].contains c)) then
        (s, acc, lb, sp, lead, trail, stop)
      else
        let acc := if lb || !sp.isEmpty then joinBreaks acc lb sp lead trail else acc
        match s.rest with
        | c :: _ =>
          let s := s.skip
          run fuel s (acc ++ [c]) false [] [] [] s.mark
        | [] => (s, acc, lb, sp, lead, trail, stop)
  let rec gaps : Nat → Scanner → Bool → List Char → List Char → List Char →
      Except Problem (Scanner × Bool × List Char × List Char × List Char)
    | 0, s, lb, sp, lead, trail => .ok (s, lb, sp, lead, trail)
    | fuel + 1, s, lb, sp, lead, trail =>
      match s.rest with
      | c :: _ =>
        if isBlank c then
          if lb && (s.mark.column : Int) < indent && c == '\t' then
            s.fail (some ("while scanning a plain scalar", start)) "found a tab character that violates indentation"
          else if lb then gaps fuel s.skip lb sp lead trail
          else gaps fuel s.skip lb (sp ++ [c]) lead trail
        else if isBreak c then
          let (t, b) := s.readLine
          if lb then gaps fuel t lb sp lead (trail ++ [b]) else gaps fuel t true [] [b] trail
        else .ok (s, lb, sp, lead, trail)
      | [] => .ok (s, lb, sp, lead, trail)
  let rec lines : Nat → Scanner → List Char → Bool → List Char → List Char → List Char → Mark →
      Except Problem (Scanner × List Char × Bool × Mark)
    | 0, s, acc, lb, _, _, _, stop => .ok (s, acc, lb, stop)
    | fuel + 1, s, acc, lb, sp, lead, trail, stop =>
      if s.atDocumentIndicator || s.sees 0 '#' then .ok (s, acc, lb, stop)
      else
        let (s, acc, lb, sp, lead, trail, stop) := run s.rest.length s acc lb sp lead trail stop
        if !(s.blankAt 0 || s.breakAt 0) then .ok (s, acc, lb, stop)
        else
          match gaps s.rest.length s lb sp lead trail with
          | .error e => .error e
          | .ok (s, lb, sp, lead, trail) =>
            if s.flowLevel == 0 && (s.mark.column : Int) < indent then .ok (s, acc, lb, stop)
            else lines fuel s acc lb sp lead trail stop
  let (s, acc, lb, stop) ← lines (s.rest.length + 1) s [] false [] [] [] start
  let s := s.push (.scalar (String.ofList acc) .plain) start stop
  pure (if lb then { s with keyAllowed := true } else s)

/-- Read the next token (or tokens: closing blocks and inserted keys come with it). -/
def fetchNext (s : Scanner) : Except Problem Scanner := do
  if !s.started then return s.fetchStreamStart
  let s := toNextToken (s.rest.length + 1) s
  let s ← s.dropStale
  let s := s.unrollIndent s.mark.column
  if s.endsAt 0 then return ← s.fetchStreamEnd
  if s.mark.column == 0 && s.sees 0 '%' then return ← s.fetchDirective
  if s.mark.column == 0 && s.sees 0 '-' && s.sees 1 '-' && s.sees 2 '-' && s.blankzAt 3 then
    return ← s.fetchDocumentIndicator .documentStart
  if s.mark.column == 0 && s.sees 0 '.' && s.sees 1 '.' && s.sees 2 '.' && s.blankzAt 3 then
    return ← s.fetchDocumentIndicator .documentEnd
  match s.ahead 0 with
  | some '[' => s.fetchFlowStart .flowSequenceStart
  | some '\x7b' => s.fetchFlowStart .flowMappingStart
  | some ']' => s.fetchFlowEnd .flowSequenceEnd
  | some '\x7d' => s.fetchFlowEnd .flowMappingEnd
  | some ',' => s.fetchFlowEntry
  | some c =>
    if c == '-' && s.blankzAt 1 then s.fetchBlockEntry
    else if c == '?' && (s.flowLevel != 0 || s.blankzAt 1) then s.fetchKey
    else if c == ':' && (s.flowLevel != 0 || s.blankzAt 1) then s.fetchValue
    else if c == '*' then s.fetchAnchor true
    else if c == '&' then s.fetchAnchor false
    else if c == '!' then s.fetchTag
    else if c == '|' && s.flowLevel == 0 then s.fetchBlockScalar true
    else if c == '>' && s.flowLevel == 0 then s.fetchBlockScalar false
    else if c == '\'' then s.fetchQuoted true
    else if c == '"' then s.fetchQuoted false
    else if s.startsPlain then s.fetchPlain
    else s.fail (some ("while scanning for the next token", s.mark)) "found character that cannot start any token"
  | none => s.fetchStreamEnd

/-- Whether the next token may still get a key token inserted before it. -/
def awaitsKey (s : Scanner) : Bool :=
  s.candidates.any fun k => k.possible && k.tokenNumber == s.taken

/-- Read until the next token is known. -/
def fill : Nat → Scanner → Except Problem Scanner
  | 0, s => .ok s
  | fuel + 1, s => do
    if s.queue.isEmpty then
      if s.ended then return s
      fill fuel (← s.fetchNext)
    else
      let s ← s.dropStale
      if s.awaitsKey && !s.ended then fill fuel (← s.fetchNext) else return s

/-- The next token, reading as much as needed. -/
def peek (s : Scanner) : Except Problem (Token × Scanner) := do
  let s ← fill (4 * s.rest.length + 16) s
  match s.queue with
  | t :: _ => pure (t, s)
  | [] => .error { problem := "unexpected end of tokens", mark := s.mark }

/-- Take the next token. -/
def advance (s : Scanner) : Scanner :=
  { s with queue := s.queue.drop 1, taken := s.taken + 1 }

/-- A scanner at the start of a text; a byte order mark at the start is skipped. The first
character not allowed in YAML is an error. -/
def start (text : String) : Except Problem Scanner :=
  let cs := text.toList
  let (cs, offset) := if cs.head? == some (Char.ofNat 0xFEFF) then (cs.drop 1, 3) else (cs, 0)
  let rec check : List Char → Nat → Except Problem Unit
    | [], _ => .ok ()
    | c :: r, off => if isAllowed c then check r (off + c.utf8Size)
      else .error { problem := "control characters are not allowed", offset := off }
  match check cs offset with
  | .error e => .error e
  | .ok () => .ok { rest := cs, mark := { index := offset } }

end Scanner

end Provisioning.Yaml
