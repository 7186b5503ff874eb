import Provisioning.Config.Yaml.Token
/-!
# YAML events

The second stage of reading YAML: tokens become events, the flat form of a
document's tree. A document is a stream of events: scalars, and the starts
and ends of sequences and mappings, each with its place; an alias stands
for a node given an anchor earlier.

The parser is a state machine with a stack of states to return to. Block
collections end where the scanner closed their indentation; a sequence
written at the same indentation as the mapping key it belongs to
(`key:` followed by `- item` lines) needs no start token of its own. A
missing node (a key with nothing after its `:`) reads as an empty plain
scalar placed where the node would have started.

Only the first document of a stream is read: the events of the first
document up to its end, or up to the first error, which is kept with
the events before it. The reader of a document decides whether the error
matters: it does when reading needs an event beyond it.
-/

namespace Provisioning.Yaml

/-- The kinds of events. -/
inductive EventKind where
  | streamStart
  | streamEnd
  | documentStart
  | documentEnd
  | alias (name : String)
  | scalar (anchor tag : Option String) (text : String) (style : ScalarStyle)
  | sequenceStart (anchor tag : Option String)
  | sequenceEnd
  | mappingStart (anchor tag : Option String)
  | mappingEnd
  deriving Inhabited, Repr

/-- An event and its place. -/
structure Event where
  kind : EventKind
  start : Mark
  stop : Mark
  deriving Inhabited, Repr

/-- What the parser does next. -/
inductive ParseState where
  | streamStart
  | implicitDocumentStart
  | documentStart
  | documentContent
  | documentEnd
  | blockNode
  | blockNodeOrIndentlessSequence
  | flowNode
  | blockSequenceFirstEntry
  | blockSequenceEntry
  | indentlessSequenceEntry
  | blockMappingFirstKey
  | blockMappingKey
  | blockMappingValue
  | flowSequenceFirstEntry
  | flowSequenceEntry
  | flowSequenceEntryMappingKey
  | flowSequenceEntryMappingValue
  | flowSequenceEntryMappingEnd
  | flowMappingFirstKey
  | flowMappingKey
  | flowMappingValue
  | flowMappingEmptyValue
  | finished
  deriving Inhabited, BEq

/-- The parser: the scanner, the current state, the states to return to, and the starts of
the open collections. -/
structure Parser where
  scanner : Scanner
  state : ParseState := .streamStart
  states : List ParseState := []
  marks : List Mark := []
  deriving Inhabited

/-- What one step of the parser gives. -/
abbrev Parsed := Except Problem (Event × Parser)

namespace Parser

/-- The next token. -/
def peek (p : Parser) : Except Problem (Token × Parser) := do
  let (t, s) ← p.scanner.peek
  pure (t, { p with scanner := s })

/-- Take the next token. -/
def advance (p : Parser) : Parser := { p with scanner := p.scanner.advance }

/-- Return to the state on top of the stack. -/
def pop (p : Parser) : Parser :=
  { p with state := p.states.headD .finished, states := p.states.drop 1 }

/-- Remember a state to return to. -/
def push (p : Parser) (st : ParseState) : Parser := { p with states := st :: p.states }

/-- The start of the innermost open collection, forgetting it. -/
def popMark (p : Parser) : Mark × Parser := (p.marks.headD {}, { p with marks := p.marks.drop 1 })

/-- An empty plain scalar at a place. -/
def emptyScalar (p : Parser) (m : Mark) : Parsed :=
  .ok (⟨.scalar none none "" .plain, m, m⟩, p)

/-- An error found by the parser. -/
def fail {α : Type} (context : Option (String × Mark)) (problem : String) (m : Mark) : Except Problem α :=
  .error { problem, mark := m, context }

/-- The full name of a tag from its handle and suffix. -/
def resolveTag (handle suffix : String) : Option String :=
  if handle == "" then some suffix
  else if handle == "!" then some ("!" ++ suffix)
  else if handle == "!!" then some ("tag:yaml.org,2002:" ++ suffix)
  else none

/-- A node: an alias, or properties (anchor, tag) followed by a scalar or a collection. -/
def node (p : Parser) (block indentless : Bool) : Parsed := do
  let (t, p) ← p.peek
  if let .alias name := t.kind then
    return (⟨.alias name, t.start, t.stop⟩, p.advance.pop)
  let start := t.start
  -- properties, in either order
  let (anchor, tagParts, tagMark, stop, t, p) ← (do
    match t.kind with
    | .anchor a =>
      let p := p.advance
      let (t2, p) ← p.peek
      match t2.kind with
      | .tag h s =>
        let p := p.advance
        let (t3, p) ← p.peek
        pure (some a, some (h, s), t2.start, t2.stop, t3, p)
      | _ => pure (some a, none, start, t.stop, t2, p)
    | .tag h s =>
      let p := p.advance
      let (t2, p) ← p.peek
      match t2.kind with
      | .anchor a =>
        let p := p.advance
        let (t3, p) ← p.peek
        pure (some a, some (h, s), t.start, t2.stop, t3, p)
      | _ => pure (none, some (h, s), t.start, t.stop, t2, p)
    | _ => pure (none, none, start, start, t, p) : Except Problem _)
  let tag ← match tagParts with
    | none => pure none
    | some (h, s) =>
      match resolveTag h s with
      | some tg => pure (some tg)
      | none => fail (some ("while parsing a node", start)) "found undefined tag handle" tagMark
  if indentless && t.kind == .blockEntry then
    return (⟨.sequenceStart anchor tag, start, t.stop⟩, { p with state := .indentlessSequenceEntry })
  match t.kind with
  | .scalar text style =>
    pure (⟨.scalar anchor tag text style, start, t.stop⟩, p.advance.pop)
  | .flowSequenceStart =>
    pure (⟨.sequenceStart anchor tag, start, t.stop⟩, { p with state := .flowSequenceFirstEntry })
  | .flowMappingStart =>
    pure (⟨.mappingStart anchor tag, start, t.stop⟩, { p with state := .flowMappingFirstKey })
  | .blockSequenceStart =>
    if block then pure (⟨.sequenceStart anchor tag, start, t.stop⟩, { p with state := .blockSequenceFirstEntry })
    else otherwise anchor tag start stop t p
  | .blockMappingStart =>
    if block then pure (⟨.mappingStart anchor tag, start, t.stop⟩, { p with state := .blockMappingFirstKey })
    else otherwise anchor tag start stop t p
  | _ => otherwise anchor tag start stop t p
where
  /-- Properties with no content stand for an empty scalar; nothing at all is an error. -/
  otherwise (anchor tag : Option String) (start stop : Mark) (t : Token) (p : Parser) : Parsed :=
    if anchor.isSome || tag.isSome then .ok (⟨.scalar anchor tag "" .plain, start, stop⟩, p.pop)
    else fail (some (if block then "while parsing a block node" else "while parsing a flow node", start))
      "did not find expected node content" t.start

/-- The start of a document, explicit (`---`) or not. -/
def documentStart (p : Parser) (implicit : Bool) : Parsed := do
  let rec skipEnds : Nat → Parser → Except Problem (Token × Parser)
    | 0, p => p.peek
    | n + 1, p => do
      let (t, p) ← p.peek
      if !implicit && t.kind == .documentEnd then skipEnds n p.advance else pure (t, p)
  let (t, p) ← skipEnds (p.scanner.rest.length + 2) p
  let rec skipDirectives : Nat → Parser → Except Problem (Token × Parser)
    | 0, p => p.peek
    | n + 1, p => do
      let (t, p) ← p.peek
      if t.kind == .directive then skipDirectives n p.advance else pure (t, p)
  if implicit && t.kind != .directive && t.kind != .documentStart && t.kind != .streamEnd then
    pure (⟨.documentStart, t.start, t.start⟩, { (p.push .documentEnd) with state := .blockNode })
  else if t.kind != .streamEnd then
    let (t, p) ← skipDirectives (p.scanner.rest.length + 2) p
    if t.kind != .documentStart then fail none "did not find expected <document start>" t.start
    else pure (⟨.documentStart, t.start, t.stop⟩, { (p.push .documentEnd) with state := .documentContent }.advance)
  else pure (⟨.streamEnd, t.start, t.stop⟩, ({ p with state := .finished }).advance)

/-- One step: the next event. -/
def step (p : Parser) : Parsed := do
  match p.state with
  | .streamStart =>
    let (t, p) ← p.peek
    if t.kind != .streamStart then fail none "did not find expected <stream-start>" t.start
    else pure (⟨.streamStart, t.start, t.stop⟩, ({ p with state := .implicitDocumentStart }).advance)
  | .implicitDocumentStart => p.documentStart true
  | .documentStart => p.documentStart false
  | .documentContent =>
    let (t, p) ← p.peek
    if t.kind == .directive || t.kind == .documentStart || t.kind == .documentEnd || t.kind == .streamEnd then
      p.pop.emptyScalar t.start
    else p.node true false
  | .documentEnd =>
    let (t, p) ← p.peek
    if t.kind == .documentEnd then
      pure (⟨.documentEnd, t.start, t.stop⟩, ({ p with state := .documentStart }).advance)
    else pure (⟨.documentEnd, t.start, t.start⟩, { p with state := .documentStart })
  | .blockNode => p.node true false
  | .blockNodeOrIndentlessSequence => p.node true true
  | .flowNode => p.node false false
  | .blockSequenceFirstEntry => do
    let (t, p) ← p.peek
    blockSequenceEntry ({ p with marks := t.start :: p.marks }).advance
  | .blockSequenceEntry => blockSequenceEntry p
  | .indentlessSequenceEntry =>
    let (t, p) ← p.peek
    if t.kind == .blockEntry then
      let m := t.stop
      let p := p.advance
      let (t, p) ← p.peek
      if t.kind != .blockEntry && t.kind != .key && t.kind != .value && t.kind != .blockEnd then
        (p.push .indentlessSequenceEntry).node true false
      else ({ p with state := .indentlessSequenceEntry }).emptyScalar m
    else pure (⟨.sequenceEnd, t.start, t.start⟩, p.pop)
  | .blockMappingFirstKey => do
    let (t, p) ← p.peek
    blockMappingKey ({ p with marks := t.start :: p.marks }).advance
  | .blockMappingKey => blockMappingKey p
  | .blockMappingValue =>
    let (t, p) ← p.peek
    if t.kind == .value then
      let m := t.stop
      let p := p.advance
      let (t, p) ← p.peek
      if t.kind != .key && t.kind != .value && t.kind != .blockEnd then
        (p.push .blockMappingKey).node true true
      else ({ p with state := .blockMappingKey }).emptyScalar m
    else ({ p with state := .blockMappingKey }).emptyScalar t.start
  | .flowSequenceFirstEntry => do
    let (t, p) ← p.peek
    flowSequenceEntry ({ p with marks := t.start :: p.marks }).advance true
  | .flowSequenceEntry => flowSequenceEntry p false
  | .flowSequenceEntryMappingKey =>
    let (t, p) ← p.peek
    if t.kind != .value && t.kind != .flowEntry && t.kind != .flowSequenceEnd then
      (p.push .flowSequenceEntryMappingValue).node false false
    else ({ p with state := .flowSequenceEntryMappingValue }).emptyScalar t.start
  | .flowSequenceEntryMappingValue =>
    let (t, p) ← p.peek
    if t.kind == .value then
      let p := p.advance
      let (t, p) ← p.peek
      if t.kind != .flowEntry && t.kind != .flowSequenceEnd then
        (p.push .flowSequenceEntryMappingEnd).node false false
      else ({ p with state := .flowSequenceEntryMappingEnd }).emptyScalar t.start
    else ({ p with state := .flowSequenceEntryMappingEnd }).emptyScalar t.start
  | .flowSequenceEntryMappingEnd =>
    let (t, p) ← p.peek
    pure (⟨.mappingEnd, t.start, t.start⟩, { p with state := .flowSequenceEntry })
  | .flowMappingFirstKey => do
    let (t, p) ← p.peek
    flowMappingKey ({ p with marks := t.start :: p.marks }).advance true
  | .flowMappingKey => flowMappingKey p false
  | .flowMappingValue => flowMappingValue p false
  | .flowMappingEmptyValue => flowMappingValue p true
  | .finished => fail none "no more events" p.scanner.mark
where
  blockSequenceEntry (p : Parser) : Parsed := do
    let (t, p) ← p.peek
    if t.kind == .blockEntry then
      let m := t.stop
      let p := p.advance
      let (t, p) ← p.peek
      if t.kind != .blockEntry && t.kind != .blockEnd then (p.push .blockSequenceEntry).node true false
      else ({ p with state := .blockSequenceEntry }).emptyScalar m
    else if t.kind == .blockEnd then
      let (_, p) := p.popMark
      pure (⟨.sequenceEnd, t.start, t.stop⟩, p.pop.advance)
    else
      let (m, _) := p.popMark
      fail (some ("while parsing a block collection", m)) "did not find expected '-' indicator" t.start
  blockMappingKey (p : Parser) : Parsed := do
    let (t, p) ← p.peek
    if t.kind == .key then
      let m := t.stop
      let p := p.advance
      let (t, p) ← p.peek
      if t.kind != .key && t.kind != .value && t.kind != .blockEnd then (p.push .blockMappingValue).node true true
      else ({ p with state := .blockMappingValue }).emptyScalar m
    else if t.kind == .blockEnd then
      let (_, p) := p.popMark
      pure (⟨.mappingEnd, t.start, t.stop⟩, p.pop.advance)
    else
      let (m, _) := p.popMark
      fail (some ("while parsing a block mapping", m)) "did not find expected key" t.start
  flowSequenceEntry (p : Parser) (first : Bool) : Parsed := do
    let (t, p) ← p.peek
    let closing (t : Token) (p : Parser) : Parsed :=
      let (_, p) := p.popMark
      .ok (⟨.sequenceEnd, t.start, t.stop⟩, p.pop.advance)
    if t.kind == .flowSequenceEnd then closing t p else
    let (t, p) ← if first then pure (t, p)
      else if t.kind == .flowEntry then p.advance.peek
      else
        let (m, _) := p.popMark
        fail (some ("while parsing a flow sequence", m)) "did not find expected ',' or ']'" t.start
    if t.kind == .key then
      pure (⟨.mappingStart none none, t.start, t.stop⟩, ({ p with state := .flowSequenceEntryMappingKey }).advance)
    else if t.kind != .flowSequenceEnd then (p.push .flowSequenceEntry).node false false
    else closing t p
  flowMappingKey (p : Parser) (first : Bool) : Parsed := do
    let (t, p) ← p.peek
    let closing (t : Token) (p : Parser) : Parsed :=
      let (_, p) := p.popMark
      .ok (⟨.mappingEnd, t.start, t.stop⟩, p.pop.advance)
    if t.kind == .flowMappingEnd then closing t p else
    let (t, p) ← if first then pure (t, p)
      else if t.kind == .flowEntry then p.advance.peek
      else
        let (m, _) := p.popMark
        fail (some ("while parsing a flow mapping", m)) "did not find expected ',' or '\x7d'" t.start
    if t.kind == .key then
      let p := p.advance
      let (t, p) ← p.peek
      if t.kind != .value && t.kind != .flowEntry && t.kind != .flowMappingEnd then
        (p.push .flowMappingValue).node false false
      else ({ p with state := .flowMappingValue }).emptyScalar t.start
    else if t.kind != .flowMappingEnd then (p.push .flowMappingEmptyValue).node false false
    else closing t p
  flowMappingValue (p : Parser) (empty : Bool) : Parsed := do
    let (t, p) ← p.peek
    if empty then ({ p with state := .flowMappingKey }).emptyScalar t.start
    else if t.kind == .value then
      let p := p.advance
      let (t, p) ← p.peek
      if t.kind != .flowEntry && t.kind != .flowMappingEnd then (p.push .flowMappingKey).node false false
      else ({ p with state := .flowMappingKey }).emptyScalar t.start
    else ({ p with state := .flowMappingKey }).emptyScalar t.start

end Parser

/-- The events of a stream's first document, and the error that ended reading early, if any.
`more` tells whether another document follows (or the stream goes wrong after the first). -/
structure Document where
  events : List Event
  error : Option Problem
  more : Bool
  deriving Inhabited

/-- Read events until the first document ends. An empty stream is a document holding no
node. -/
def Document.read (text : String) : Document :=
  match Scanner.start text with
  | .error e => { events := [], error := some e, more := false }
  | .ok s =>
    let fuel := 8 * s.rest.length + 64
    let rec go : Nat → Parser → List Event → Bool → Document
      | 0, _, acc, _ => { events := acc.reverse, error := none, more := false }
      | n + 1, p, acc, begun =>
        match p.step with
        | .error e => { events := acc.reverse, error := some e, more := false }
        | .ok (ev, p) =>
          match ev.kind with
          | .streamStart | .documentStart => go n p acc true
          | .documentEnd =>
            let more := match p.step with
              | .ok (ev2, _) => match ev2.kind with
                | .streamEnd => false
                | _ => true
              | .error _ => true
            { events := acc.reverse, error := none, more }
          | .streamEnd =>
            { events := acc.reverse, error := none, more := false }
          | _ => go n p (ev :: acc) begun
    go fuel { scanner := s } [] false

end Provisioning.Yaml
