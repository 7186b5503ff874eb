import Provisioning.Shell.Grammar

/-!
# Reading a script's text

Splits a script into tokens and hands them to the grammar. Quoting is settled
here: single quotes keep everything, double quotes keep all but `$`, the
backquote and the backslash before one of `$ ` " \`, and an unquoted
backslash keeps the next character. A command substitution, `$(...)` or a
backquoted one, is read as a script of its own, so the reader and the grammar
meet here. Every function takes a fuel bound: four steps per character cover
the deepest nesting a text can have.
-/

namespace Provisioning.Shell

/-- Characters that end an unquoted word. -/
def isMeta (c : Char) : Bool :=
  c == ' ' || c == '\t' || c == '\n' || c == ';' || c == '&' || c == '|' || c == '(' ||
    c == ')' || c == '<' || c == '>'

/-- Pieces so far, with pending unquoted text added as a plain piece. -/
def flushPlain (acc : List Piece) (buf : Array Char) : List Piece :=
  if buf.isEmpty then acc else acc ++ [.plain (String.ofList buf.toList)]

/-- Pieces so far, with pending quoted text added as a quoted piece. -/
def flushQuoted (acc : List Piece) (buf : Array Char) : List Piece :=
  if buf.isEmpty then acc else acc ++ [.quoted (String.ofList buf.toList)]

/-- How many line ends a text holds. -/
def lineEnds (cs : List Char) : Nat := (cs.filter (· == '\n')).length

/-- The inside of single quotes and the text after the closing quote. -/
def singleQuoted : List Char → Array Char → Option (List Char × List Char)
  | [], _ => none
  | '\'' :: rest, acc => some (acc.toList, rest)
  | c :: rest, acc => singleQuoted rest (acc.push c)

/-- The inside of `${...}` and the text after the closing brace. -/
def braceBody : List Char → Array Char → Option (List Char × List Char)
  | [], _ => none
  | '}' :: rest, acc => some (acc.toList, rest)
  | c :: rest, acc => braceBody rest (acc.push c)

/-- The inside of backquotes, with the backslash before `$`, the backquote and
the backslash removed, and the text after the closing backquote. -/
def backquoted : List Char → Array Char → Option (List Char × List Char)
  | [], _ => none
  | '`' :: rest, acc => some (acc.toList, rest)
  | '\\' :: c :: rest, acc =>
    if c == '$' || c == '`' || c == '\\' then backquoted rest (acc.push c)
    else backquoted rest ((acc.push '\\').push c)
  | c :: rest, acc => backquoted rest (acc.push c)

/-- The operator at the start of a text, longest first, and the text after it. -/
def operatorAt : List Char → Option (String × List Char)
  | '&' :: '&' :: rest => some ("&&", rest)
  | '|' :: '|' :: rest => some ("||", rest)
  | ';' :: ';' :: rest => some (";;", rest)
  | '>' :: '>' :: rest => some (">>", rest)
  | '<' :: '<' :: rest => some ("<<", rest)
  | '>' :: '&' :: rest => some (">&", rest)
  | '<' :: '&' :: rest => some ("<&", rest)
  | '>' :: '|' :: rest => some (">|", rest)
  | '<' :: '>' :: rest => some ("<>", rest)
  | c :: rest =>
    if c == ';' || c == '&' || c == '|' || c == '(' || c == ')' || c == '<' || c == '>' then
      some (String.singleton c, rest)
    else none
  | [] => none

/-- A name after `$`: letters, digits and underscores. -/
def nameChars (cs : List Char) : List Char × List Char :=
  cs.span fun c => c.isAlphanum || c == '_'

mutual

/-- The text inside `$(...)` up to its closing parenthesis, passing over quotes
and nested parentheses, and the text after it. -/
def closeParen (fuel : Nat) (depth : Nat) (cs : List Char) (acc : Array Char) :
    Option (List Char × List Char) :=
  match fuel with
  | 0 => none
  | fuel + 1 =>
    match cs with
    | [] => none
    | ')' :: rest =>
      if depth == 0 then some (acc.toList, rest) else closeParen fuel (depth - 1) rest (acc.push ')')
    | '(' :: rest => closeParen fuel (depth + 1) rest (acc.push '(')
    | '\\' :: c :: rest => closeParen fuel depth rest ((acc.push '\\').push c)
    | '\'' :: rest =>
      match singleQuoted rest #[] with
      | some (q, rest) => closeParen fuel depth rest ((acc.push '\'' ++ q.toArray).push '\'')
      | none => none
    | '"' :: rest =>
      match closeDouble fuel rest (acc.push '"') with
      | some (acc, rest) => closeParen fuel depth rest acc
      | none => none
    | c :: rest => closeParen fuel depth rest (acc.push c)

/-- Copies a double-quoted text through its closing quote, passing over nested
command substitutions. -/
def closeDouble (fuel : Nat) (cs : List Char) (acc : Array Char) : Option (Array Char × List Char) :=
  match fuel with
  | 0 => none
  | fuel + 1 =>
    match cs with
    | [] => none
    | '"' :: rest => some (acc.push '"', rest)
    | '\\' :: c :: rest => closeDouble fuel rest ((acc.push '\\').push c)
    | '$' :: '(' :: rest =>
      match closeParen fuel 0 rest #[] with
      | some (inner, rest) => closeDouble fuel rest ((acc ++ #['$', '('] ++ inner.toArray).push ')')
      | none => none
    | c :: rest => closeDouble fuel rest (acc.push c)

end

mutual

/-- Reads a word up to an unquoted special character. With `loose`, special
characters are ordinary and the word runs to the end of the text: that is how
the word inside `${name:-word}` is read. -/
def wordPieces (fuel : Nat) (loose : Bool) (cs : List Char) (line : Nat) (acc : List Piece)
    (buf : Array Char) : Except SyntaxError (List Piece × List Char × Nat) :=
  match fuel with
  | 0 => .error ⟨line, "Syntax error: nesting too deep"⟩
  | fuel + 1 =>
    match cs with
    | [] => .ok (flushPlain acc buf, [], line)
    | c :: rest =>
      if isMeta c && !loose then .ok (flushPlain acc buf, cs, line)
      else
        match c, rest with
        | '\\', '\n' :: more => wordPieces fuel loose more (line + 1) acc buf
        | '\\', d :: more =>
          wordPieces fuel loose more line (flushPlain acc buf ++ [.quoted (String.singleton d)]) #[]
        | '\'', _ =>
          match singleQuoted rest #[] with
          | some (q, more) =>
            wordPieces fuel loose more (line + lineEnds q)
              (flushPlain acc buf ++ [.quoted (String.ofList q)]) #[]
          | none => .error ⟨line, "Syntax error: Unterminated quoted string"⟩
        | '"', _ => do
          let (ps, more, line') ← doubleQuoted fuel rest line [] #[]
          let ps := if ps.isEmpty then [.quoted ""] else ps
          wordPieces fuel loose more line' (flushPlain acc buf ++ ps) #[]
        | '$', _ => do
          let (p, more, line') ← dollar fuel rest line false
          match p with
          | some p => wordPieces fuel loose more line' (flushPlain acc buf ++ [p]) #[]
          | none => wordPieces fuel loose more line' acc (buf.push '$')
        | '`', _ =>
          match backquoted rest #[] with
          | some (inner, more) => do
            let body ← scriptOf fuel inner line
            wordPieces fuel loose more (line + lineEnds inner)
              (flushPlain acc buf ++ [.output body false]) #[]
          | none => .error ⟨line, "Syntax error: EOF in backquote substitution"⟩
        | _, _ => wordPieces fuel loose rest line acc (buf.push c)

/-- Reads the inside of double quotes through the closing quote. -/
def doubleQuoted (fuel : Nat) (cs : List Char) (line : Nat) (acc : List Piece) (buf : Array Char) :
    Except SyntaxError (List Piece × List Char × Nat) :=
  match fuel with
  | 0 => .error ⟨line, "Syntax error: nesting too deep"⟩
  | fuel + 1 =>
    match cs with
    | [] => .error ⟨line, "Syntax error: Unterminated quoted string"⟩
    | '"' :: rest => .ok (flushQuoted acc buf, rest, line)
    | '\\' :: '\n' :: rest => doubleQuoted fuel rest (line + 1) acc buf
    | '\\' :: d :: rest =>
      if d == '$' || d == '`' || d == '"' || d == '\\' then doubleQuoted fuel rest line acc (buf.push d)
      else doubleQuoted fuel rest line acc ((buf.push '\\').push d)
    | '$' :: rest => do
      let (p, more, line') ← dollar fuel rest line true
      match p with
      | some p => doubleQuoted fuel more line' (flushQuoted acc buf ++ [p]) #[]
      | none => doubleQuoted fuel more line' acc (buf.push '$')
    | '`' :: rest =>
      match backquoted rest #[] with
      | some (inner, more) => do
        let body ← scriptOf fuel inner line
        doubleQuoted fuel more (line + lineEnds inner) (flushQuoted acc buf ++ [.output body true]) #[]
      | none => .error ⟨line, "Syntax error: EOF in backquote substitution"⟩
    | '\n' :: rest => doubleQuoted fuel rest (line + 1) acc (buf.push '\n')
    | c :: rest => doubleQuoted fuel rest line acc (buf.push c)

/-- Reads what follows a `$`: a parameter, `${...}`, `$(...)` or `$((...))`.
Nothing is read when the `$` stands for itself. -/
def dollar (fuel : Nat) (cs : List Char) (line : Nat) (inQuotes : Bool) :
    Except SyntaxError (Option Piece × List Char × Nat) :=
  match fuel with
  | 0 => .error ⟨line, "Syntax error: nesting too deep"⟩
  | fuel + 1 =>
    match cs with
    | '(' :: '(' :: rest =>
      match closeParen fuel 0 rest #[] with
      | some (inner, ')' :: more) => do
        let (ps, _, _) ← doubleQuoted fuel (inner ++ ['"']) line [] #[]
        .ok (some (.arith ps inQuotes), more, line + lineEnds inner)
      | _ => .error ⟨line, "Syntax error: Missing '))'"⟩
    | '(' :: rest =>
      match closeParen fuel 0 rest #[] with
      | some (inner, more) => do
        let body ← scriptOf fuel inner line
        .ok (some (.output body inQuotes), more, line + lineEnds inner)
      | none => .error ⟨line, "Syntax error: end of file unexpected (expecting \")\")"⟩
    | '{' :: rest =>
      match braceBody rest #[] with
      | some (inner, more) => do
        let p ← braceParam fuel inner line inQuotes
        .ok (some p, more, line)
      | none => .error ⟨line, "Syntax error: Missing '\x7d'"⟩
    | c :: rest =>
      if c.isAlpha || c == '_' then
        let (name, more) := nameChars cs
        .ok (some (.param (String.ofList name) inQuotes), more, line)
      else if c.isDigit || "@*#?$!-".toList.contains c then
        .ok (some (.param (String.singleton c) inQuotes), rest, line)
      else .ok (none, cs, line)
    | [] => .ok (none, [], line)

/-- The parameter expansion written inside `${...}`. -/
def braceParam (fuel : Nat) (inner : List Char) (line : Nat) (inQuotes : Bool) :
    Except SyntaxError Piece :=
  match fuel with
  | 0 => .error ⟨line, "Syntax error: nesting too deep"⟩
  | fuel + 1 =>
    let bad : Except SyntaxError Piece := .error ⟨line, "Bad substitution"⟩
    let loose (w : List Char) : Except SyntaxError (List Piece) := do
      let (ps, _, _) ← wordPieces fuel true w line [] #[]
      .ok ps
    match inner with
    | ['#'] => .ok (.param "#" inQuotes)
    | '#' :: rest =>
      if isName (String.ofList rest) || rest.all Char.isDigit then .ok (.length (String.ofList rest) inQuotes)
      else bad
    | c :: rest =>
      let (name, op) :=
        if c.isAlpha || c == '_' then nameChars inner
        else if c.isDigit then inner.span Char.isDigit
        else if "@*#?$!-".toList.contains c then ([c], rest)
        else ([], inner)
      if name.isEmpty then bad else
      let n := String.ofList name
      match op with
      | [] => .ok (.param n inQuotes)
      | ':' :: '-' :: w => do .ok (.fallback n true .useWord (← loose w) inQuotes)
      | ':' :: '=' :: w => do .ok (.fallback n true .assign (← loose w) inQuotes)
      | ':' :: '+' :: w => do .ok (.fallback n true .alternative (← loose w) inQuotes)
      | ':' :: '?' :: w => do .ok (.fallback n true .fail (← loose w) inQuotes)
      | '-' :: w => do .ok (.fallback n false .useWord (← loose w) inQuotes)
      | '=' :: w => do .ok (.fallback n false .assign (← loose w) inQuotes)
      | '+' :: w => do .ok (.fallback n false .alternative (← loose w) inQuotes)
      | '?' :: w => do .ok (.fallback n false .fail (← loose w) inQuotes)
      | '%' :: '%' :: w => do .ok (.trim n true true (← loose w) inQuotes)
      | '%' :: w => do .ok (.trim n true false (← loose w) inQuotes)
      | '#' :: '#' :: w => do .ok (.trim n false true (← loose w) inQuotes)
      | '#' :: w => do .ok (.trim n false false (← loose w) inQuotes)
      | _ => bad
    | [] => bad

/-- The commands of a script's text whose first line has the number `line`. -/
def scriptOf (fuel : Nat) (cs : List Char) (line : Nat) : Except SyntaxError (List Command) :=
  match fuel with
  | 0 => .error ⟨line, "Syntax error: nesting too deep"⟩
  | fuel + 1 => do
    let ts ← tokensOf fuel cs line #[]
    commandsOf ts.toList

/-- The tokens of a text. -/
def tokensOf (fuel : Nat) (cs : List Char) (line : Nat) (acc : Array Token) :
    Except SyntaxError (Array Token) :=
  match fuel with
  | 0 => .error ⟨line, "Syntax error: nesting too deep"⟩
  | fuel + 1 =>
    match cs with
    | [] => .ok acc
    | ' ' :: rest => tokensOf fuel rest line acc
    | '\t' :: rest => tokensOf fuel rest line acc
    | '\\' :: '\n' :: rest => tokensOf fuel rest (line + 1) acc
    | '#' :: rest => tokensOf fuel (rest.dropWhile (· != '\n')) line acc
    | '\n' :: rest => tokensOf fuel rest (line + 1) (acc.push (.newline line))
    | c :: _ =>
      match operatorAt cs with
      | some (o, rest) => tokensOf fuel rest line (acc.push (.op o none line))
      | none =>
        let (digits, after) := cs.span Char.isDigit
        match c.isDigit, after with
        | true, '>' :: _ | true, '<' :: _ =>
          match operatorAt after with
          | some (o, rest) =>
            tokensOf fuel rest line (acc.push (.op o (some ((String.ofList digits).toNat?.getD 0)) line))
          | none => .ok acc
        | _, _ => do
          let (ps, rest, line') ← wordPieces fuel false cs line [] #[]
          tokensOf fuel rest line' (acc.push (.word ps line))

end

/-- The commands of a script. -/
def parseScript (text : String) : Except SyntaxError (List Command) :=
  scriptOf (4 * text.length + 16) text.toList 1

end Provisioning.Shell
