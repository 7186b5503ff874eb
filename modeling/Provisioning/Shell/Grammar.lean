import Provisioning.Shell.Token

/-!
# From tokens to commands

The grammar of the shell over a list of tokens: lists of and-or chains,
pipelines, simple commands with their assignments and redirections, and the
compound commands `if`, `while`, `until`, `for`, `case`, `{ }` and `( )`.
Reserved words count only where a command may start. Every function takes a
fuel bound, eight steps per token, which is more than the deepest nesting a
token list can have.
-/

namespace Provisioning.Shell

/-- Drops line ends. -/
def skipNewlines : List Token → List Token
  | .newline _ :: ts => skipNewlines ts
  | ts => ts

/-- Whether a list of commands ends here: at the end of the tokens, or at one
of the words or operators that close the construct being read. -/
def atStop (stops : List String) : List Token → Bool
  | [] => true
  | .word [.plain w] _ :: _ => stops.contains w
  | .op s none _ :: _ => stops.contains s
  | _ => false

/-- The fault at the head of the tokens. -/
def faultAt (ts : List Token) (expecting : Option String) : SyntaxError :=
  SyntaxError.unexpected ts.head? ((ts.getLast?.map Token.line).getD 1) expecting

/-- The tokens after the reserved word `w`, which must come next. -/
def expectWord (w : String) (ts : List Token) : Except SyntaxError (List Token) :=
  match ts with
  | t :: rest => if t.bare? == some w then .ok rest else .error (faultAt ts (some w))
  | [] => .error (faultAt [] (some w))

/-- How a redirection operator connects which descriptor by default. -/
def redirectOp (s : String) : Option (Nat × RedirectKind) :=
  match s with
  | ">" | ">|" => some (1, .write)
  | ">>" => some (1, .append)
  | "<" | "<>" => some (0, .read)
  | ">&" => some (1, .duplicate)
  | "<&" => some (0, .duplicate)
  | _ => none

/-- The redirections that follow a compound command. -/
def redirectsAfter (ts : List Token) (acc : List (Nat × RedirectKind × List Piece)) :
    Except SyntaxError ((List (Nat × RedirectKind × List Piece)) × List Token) :=
  match ts with
  | .op s fd l :: rest =>
    match redirectOp s, rest with
    | some (d, k), .word ps _ :: rest => redirectsAfter rest (acc ++ [(fd.getD d, k, ps)])
    | some _, _ => .error (SyntaxError.unexpected rest.head? l none)
    | none, _ => .ok (acc, ts)
  | _ => .ok (acc, ts)

/-- A word that assigns a variable, `name=value`, split into the name and the
pieces of the value. -/
def assignment? : List Piece → Option (String × List Piece)
  | .plain t :: rest =>
    match t.toList.span (· != '=') with
    | (name, '=' :: value) =>
      let n := String.ofList name
      if isName n then
        some (n, if value.isEmpty then rest else .plain (String.ofList value) :: rest)
      else none
    | _ => none
  | _ => none

/-- The rest of a simple command: assignments before the first word, then
words, with redirections anywhere among them. -/
def simpleParts (ts : List Token) (assigns : List (String × List Piece)) (words : List (List Piece))
    (redirects : List (Nat × RedirectKind × List Piece)) :
    Except SyntaxError ((List (String × List Piece) × List (List Piece) ×
      List (Nat × RedirectKind × List Piece)) × List Token) :=
  match ts with
  | .op s fd l :: rest =>
    match redirectOp s, rest with
    | some (d, k), .word ps _ :: rest => simpleParts rest assigns words (redirects ++ [(fd.getD d, k, ps)])
    | some _, _ => .error (SyntaxError.unexpected rest.head? l none)
    | none, _ => .ok ((assigns, words, redirects), ts)
  | .word ps _ :: rest =>
    match words, assignment? ps with
    | [], some a => simpleParts rest (assigns ++ [a]) words redirects
    | _, _ => simpleParts rest assigns (words ++ [ps]) redirects
  | _ => .ok ((assigns, words, redirects), ts)

/-- A simple command; one with no part at all is a fault of the token there. -/
def parseSimple (ts : List Token) : Except SyntaxError (Command × List Token) := do
  let line := (ts.head?.map Token.line).getD 1
  let ((assigns, words, redirects), rest) ← simpleParts ts [] [] []
  if assigns.isEmpty && words.isEmpty && redirects.isEmpty then
    .error (faultAt ts none)
  else .ok (.simple line assigns words redirects, rest)

/-- The words after `for name in`, up to a semicolon or line end. -/
def forWords (ts : List Token) (acc : List (List Piece)) : Except SyntaxError ((List (List Piece)) × List Token) :=
  match ts with
  | .word ps _ :: rest => forWords rest (acc ++ [ps])
  | .newline _ :: rest => .ok (acc, rest)
  | t :: rest => if t.isOp ";" then .ok (acc, rest) else .error (faultAt ts none)
  | [] => .error (faultAt [] (some "do"))

/-- The patterns of a `case` arm, up to the closing parenthesis. -/
def casePatterns (ts : List Token) (acc : List (List Piece)) : Except SyntaxError ((List (List Piece)) × List Token) :=
  match ts with
  | .word ps _ :: t :: rest =>
    if t.isOp "|" then casePatterns rest (acc ++ [ps])
    else if t.isOp ")" then .ok (acc ++ [ps], rest)
    else .error (faultAt (t :: rest) (some ")"))
  | _ => .error (faultAt ts (some ")"))

/-- A pipeline of one stage is that stage. -/
def pipeOf : List Command → Command
  | [c] => c
  | cs => .pipe cs

mutual

/-- Commands up to one of the closing words or operators in `stops`. -/
def parseList (fuel : Nat) (stops : List String) (ts : List Token) (acc : List Command) :
    Except SyntaxError ((List Command) × List Token) :=
  match fuel with
  | 0 => .error (faultAt ts none)
  | fuel + 1 =>
    let ts := skipNewlines ts
    if atStop stops ts then .ok (acc, ts) else do
      let (c, ts) ← parseAndOr fuel ts
      match ts with
      | [] => .ok (acc ++ [c], [])
      | .newline _ :: rest => parseList fuel stops rest (acc ++ [c])
      | t :: rest =>
        if t.isOp ";" then parseList fuel stops rest (acc ++ [c])
        else if t.isOp "&" then parseList fuel stops rest (acc ++ [.background c])
        else if atStop stops ts then .ok (acc ++ [c], ts)
        else .error (faultAt ts none)

/-- Pipelines joined by `&&` and `||`, which bind from the left. -/
def parseAndOr (fuel : Nat) (ts : List Token) : Except SyntaxError (Command × List Token) :=
  match fuel with
  | 0 => .error (faultAt ts none)
  | fuel + 1 => do
    let (p, ts) ← parsePipeline fuel ts
    andOrTail fuel p ts

/-- The rest of an and-or chain after its first pipeline. -/
def andOrTail (fuel : Nat) (left : Command) (ts : List Token) : Except SyntaxError (Command × List Token) :=
  match fuel with
  | 0 => .error (faultAt ts none)
  | fuel + 1 =>
    match ts with
    | t :: rest =>
      if t.isOp "&&" then do
        let (q, ts) ← parsePipeline fuel (skipNewlines rest)
        andOrTail fuel (.both left q) ts
      else if t.isOp "||" then do
        let (q, ts) ← parsePipeline fuel (skipNewlines rest)
        andOrTail fuel (.either left q) ts
      else .ok (left, ts)
    | [] => .ok (left, [])

/-- A pipeline, perhaps negated by `!`. -/
def parsePipeline (fuel : Nat) (ts : List Token) : Except SyntaxError (Command × List Token) :=
  match fuel with
  | 0 => .error (faultAt ts none)
  | fuel + 1 =>
    match ts with
    | t :: rest =>
      if t.bare? == some "!" then do
        let (c, ts) ← pipeStages fuel rest []
        .ok (.negate c, ts)
      else pipeStages fuel ts []
    | [] => .error (faultAt [] none)

/-- The stages of a pipeline. -/
def pipeStages (fuel : Nat) (ts : List Token) (acc : List Command) : Except SyntaxError (Command × List Token) :=
  match fuel with
  | 0 => .error (faultAt ts none)
  | fuel + 1 => do
    let (c, ts) ← parseCommand fuel ts
    match ts with
    | t :: rest =>
      if t.isOp "|" then pipeStages fuel (skipNewlines rest) (acc ++ [c])
      else .ok (pipeOf (acc ++ [c]), ts)
    | [] => .ok (pipeOf (acc ++ [c]), [])

/-- One command: compound, a function definition, or simple. -/
def parseCommand (fuel : Nat) (ts : List Token) : Except SyntaxError (Command × List Token) :=
  match fuel with
  | 0 => .error (faultAt ts none)
  | fuel + 1 =>
    match ts with
    | [] => .error (faultAt [] none)
    | t :: rest =>
      match t.bare? with
      | some "if" => parseIf fuel rest
      | some "while" => parseLoop fuel false rest
      | some "until" => parseLoop fuel true rest
      | some "for" => parseFor fuel rest
      | some "case" => parseCase fuel rest
      | some "\x7b" => do
        let (body, ts) ← parseList fuel ["\x7d"] rest []
        let ts ← expectWord "\x7d" ts
        let (rs, ts) ← redirectsAfter ts []
        .ok (.group body rs, ts)
      | some w =>
        if ["then", "elif", "else", "fi", "do", "done", "esac", "\x7d", "in"].contains w then
          .error (faultAt ts none)
        else
          match rest with
          | o :: c :: body =>
            if isName w && o.isOp "(" && c.isOp ")" then do
              let (b, ts) ← parseCommand fuel (skipNewlines body)
              .ok (.define w b, ts)
            else parseSimple ts
          | _ => parseSimple ts
      | none =>
        if t.isOp "(" then do
          let (body, ts) ← parseList fuel [")"] rest []
          match ts with
          | c :: ts =>
            if c.isOp ")" then do
              let (rs, ts) ← redirectsAfter ts []
              .ok (.subshell body rs, ts)
            else .error (faultAt (c :: ts) (some ")"))
          | [] => .error (faultAt [] (some ")"))
        else parseSimple ts

/-- The rest of an `if` after its opening word. -/
def parseIf (fuel : Nat) (ts : List Token) : Except SyntaxError (Command × List Token) :=
  match fuel with
  | 0 => .error (faultAt ts none)
  | fuel + 1 => do
    let (cond, ts) ← parseList fuel ["then"] ts []
    let ts ← expectWord "then" ts
    let (body, ts) ← parseList fuel ["elif", "else", "fi"] ts []
    ifTail fuel [(cond, body)] ts

/-- The `elif`, `else` and `fi` parts of an `if`. -/
def ifTail (fuel : Nat) (arms : List (List Command × List Command)) (ts : List Token) :
    Except SyntaxError (Command × List Token) :=
  match fuel with
  | 0 => .error (faultAt ts none)
  | fuel + 1 =>
    match ts with
    | t :: rest =>
      match t.bare? with
      | some "elif" => do
        let (cond, ts) ← parseList fuel ["then"] rest []
        let ts ← expectWord "then" ts
        let (body, ts) ← parseList fuel ["elif", "else", "fi"] ts []
        ifTail fuel (arms ++ [(cond, body)]) ts
      | some "else" => do
        let (body, ts) ← parseList fuel ["fi"] rest []
        let ts ← expectWord "fi" ts
        let (rs, ts) ← redirectsAfter ts []
        .ok (.branch arms body rs, ts)
      | some "fi" => do
        let (rs, ts) ← redirectsAfter rest []
        .ok (.branch arms [] rs, ts)
      | _ => .error (faultAt ts (some "fi"))
    | [] => .error (faultAt [] (some "fi"))

/-- The rest of a `while` or `until` loop. -/
def parseLoop (fuel : Nat) (untilTrue : Bool) (ts : List Token) : Except SyntaxError (Command × List Token) :=
  match fuel with
  | 0 => .error (faultAt ts none)
  | fuel + 1 => do
    let (test, ts) ← parseList fuel ["do"] ts []
    let ts ← expectWord "do" ts
    let (body, ts) ← parseList fuel ["done"] ts []
    let ts ← expectWord "done" ts
    let (rs, ts) ← redirectsAfter ts []
    .ok (.loop untilTrue test body rs, ts)

/-- The rest of a `for` loop. -/
def parseFor (fuel : Nat) (ts : List Token) : Except SyntaxError (Command × List Token) :=
  match fuel with
  | 0 => .error (faultAt ts none)
  | fuel + 1 =>
    match ts with
    | .word [.plain name] _ :: rest => do
      let rest := skipNewlines rest
      let (items, rest) ← match rest with
        | t :: more =>
          if t.bare? == some "in" then do
            let (ws, more) ← forWords more []
            .ok (some ws, more)
          else if t.isOp ";" then .ok (none, more)
          else .ok (none, rest)
        | [] => .ok (none, [])
      let ts ← expectWord "do" (skipNewlines rest)
      let (body, ts) ← parseList fuel ["done"] ts []
      let ts ← expectWord "done" ts
      let (rs, ts) ← redirectsAfter ts []
      .ok (.forEach name items body rs, ts)
    | _ => .error (faultAt ts none)

/-- The rest of a `case` command. -/
def parseCase (fuel : Nat) (ts : List Token) : Except SyntaxError (Command × List Token) :=
  match fuel with
  | 0 => .error (faultAt ts none)
  | fuel + 1 =>
    match ts with
    | .word subject _ :: rest => do
      let ts ← expectWord "in" (skipNewlines rest)
      caseArms fuel subject ts []
    | _ => .error (faultAt ts none)

/-- The arms of a `case`, up to `esac`. -/
def caseArms (fuel : Nat) (subject : List Piece) (ts : List Token)
    (acc : List (List (List Piece) × List Command)) : Except SyntaxError (Command × List Token) :=
  match fuel with
  | 0 => .error (faultAt ts none)
  | fuel + 1 =>
    let ts := skipNewlines ts
    match ts with
    | t :: rest =>
      if t.bare? == some "esac" then do
        let (rs, ts) ← redirectsAfter rest []
        .ok (.choose subject acc rs, ts)
      else do
        let ts := if t.isOp "(" then rest else ts
        let (pats, ts) ← casePatterns ts []
        let (body, ts) ← parseList fuel ["esac", ";;"] ts []
        match ts with
        | t :: rest =>
          if t.isOp ";;" then caseArms fuel subject rest (acc ++ [(pats, body)])
          else caseArms fuel subject ts (acc ++ [(pats, body)])
        | [] => .error (faultAt [] (some "esac"))
    | [] => .error (faultAt [] (some "esac"))

end

/-- The commands of a whole token list; anything left over is a fault. -/
def commandsOf (ts : List Token) : Except SyntaxError (List Command) := do
  let (cs, rest) ← parseList (8 * ts.length + 32) [] ts []
  match rest with
  | [] => .ok cs
  | _ => .error (faultAt rest none)

end Provisioning.Shell
