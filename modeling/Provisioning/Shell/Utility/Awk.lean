import Provisioning.Shell.Utility.Text
import Provisioning.Shell.Utility.Format

/-!
# A small awk

The part of awk that one-line programs use: rules of a pattern and an action,
`BEGIN` and `END`, fields `$n` and `NF`, `NR`, variables set with `-v` or in the
program, comparison (as numbers when both sides look like numbers, otherwise
as text), regular-expression matches, `&&`, `||`, `!`, integer arithmetic,
concatenation, and the statements `print`, `printf`, `if`, `next` and `exit`.
Numbers are integers.
-/

namespace Provisioning.Shell

namespace Awk

/-- A token of an awk program. -/
inductive Token where
  | num (n : Nat)
  | str (s : String)
  | regex (s : String)
  | name (s : String)
  | sym (s : String)
  | newline
  deriving Repr, Inhabited, BEq

/-- A value: a number, a text, or a text read from input that may count as a number. -/
inductive Value where
  | num (n : Int)
  | str (s : String)
  | strnum (s : String)
  | uninit
  deriving Repr, Inhabited

/-- An expression. -/
inductive Expr where
  | num (n : Int)
  | str (s : String)
  | regex (r : String)
  | field (e : Expr)
  | var (name : String)
  | not (e : Expr)
  | neg (e : Expr)
  | binary (op : String) (a b : Expr)
  | concat (a b : Expr)
  | assign (name : String) (op : String) (e : Expr)
  | call (f : String) (args : List Expr)
  deriving Repr, Inhabited

/-- A statement. -/
inductive Stmt where
  | print (args : List Expr)
  | printf (args : List Expr)
  | eval (e : Expr)
  | next
  | exit (code : Option Expr)
  | branch (cond : Expr) (yes no : List Stmt)
  deriving Repr, Inhabited

/-- When a rule runs. -/
inductive When where
  | begin
  | finish
  | always
  | matching (e : Expr)
  deriving Repr, Inhabited

/-- A rule: when it runs, and its action (`none` prints the record). -/
structure Rule where
  when : When
  action : Option (List Stmt)
  deriving Repr, Inhabited

/-- Whether a regular expression may start at this point: after an operator or
at the start, never after an operand. -/
def regexAllowed : List Token → Bool
  | [] => true
  | .num _ :: _ | .str _ :: _ | .regex _ :: _ | .name _ :: _ => false
  | .sym ")" :: _ | .sym "$" :: _ => false
  | _ => true

/-- The two-character operators. -/
def pairs : List String := ["==", "!=", "<=", ">=", "&&", "||", "!~", "+=", "-=", "++", "--", "*=", "/="]

/-- The body of a string literal with its escapes, and the text after it. -/
def strBody : List Char → List Char → List Char × List Char
  | [], acc => (acc.reverse, [])
  | '"' :: rest, acc => (acc.reverse, rest)
  | '\\' :: 'n' :: rest, acc => strBody rest ('\n' :: acc)
  | '\\' :: 't' :: rest, acc => strBody rest ('\t' :: acc)
  | '\\' :: d :: rest, acc => strBody rest (d :: acc)
  | d :: rest, acc => strBody rest (d :: acc)

/-- The body of a regular-expression literal, and the text after it. -/
def regexBody : List Char → List Char → List Char × List Char
  | [], acc => (acc.reverse, [])
  | '/' :: rest, acc => (acc.reverse, rest)
  | '\\' :: '/' :: rest, acc => regexBody rest ('/' :: acc)
  | d :: rest, acc => regexBody rest (d :: acc)

/-- The tokens of a program; `acc` holds those read so far, last first. Each
step reads a character, so fuel of the text's length is enough. -/
def tokenize : Nat → List Char → List Token → Except String (List Token)
  | 0, _, _ => .error "program too long"
  | _, [], acc => .ok acc.reverse
  | fuel + 1, '\n' :: rest, acc => tokenize fuel rest (.newline :: acc)
  | fuel + 1, ' ' :: rest, acc | fuel + 1, '\t' :: rest, acc => tokenize fuel rest acc
  | fuel + 1, '\\' :: '\n' :: rest, acc => tokenize fuel rest acc
  | fuel + 1, '#' :: rest, acc => tokenize fuel (rest.dropWhile (· != '\n')) acc
  | fuel + 1, '"' :: rest, acc =>
    let (body, after) := strBody rest []
    tokenize fuel after (.str (String.ofList body) :: acc)
  | fuel + 1, c :: rest, acc =>
    if c == '/' && regexAllowed acc then
      let (body, after) := regexBody rest []
      tokenize fuel after (.regex (String.ofList body) :: acc)
    else if c.isDigit then
      let (ds, after) := (c :: rest).span Char.isDigit
      tokenize fuel after (.num ((String.ofList ds).toNat?.getD 0) :: acc)
    else if c.isAlpha || c == '_' then
      let (cs, after) := (c :: rest).span fun d => d.isAlphanum || d == '_'
      tokenize fuel after (.name (String.ofList cs) :: acc)
    else
      match rest with
      | d :: more =>
        if pairs.contains (String.ofList [c, d]) then tokenize fuel more (.sym (String.ofList [c, d]) :: acc)
        else tokenize fuel rest (.sym (String.singleton c) :: acc)
      | [] => tokenize fuel rest (.sym (String.singleton c) :: acc)

/-- Line ends and semicolons, which end statements. -/
def skipEnds : List Token → List Token
  | .newline :: ts => skipEnds ts
  | .sym ";" :: ts => skipEnds ts
  | ts => ts

/-- Line ends only. -/
def skipLines : List Token → List Token
  | .newline :: ts => skipLines ts
  | ts => ts

/-- Whether a token can start an operand, so that it continues a concatenation. -/
def startsOperand : Token → Bool
  | .num _ | .str _ | .name _ => true
  | .sym "$" | .sym "(" | .sym "!" | .sym "++" | .sym "--" => true
  | _ => false

/-- The comparison operators. -/
def comparisons : List String := ["==", "!=", "<", "<=", ">", ">="]

/-- The result of a parse step: a value and the tokens after it. -/
abbrev Step (α : Type) := Except String (α × List Token)

mutual

/-- An expression, assignments included. -/
def expr (fuel : Nat) (ts : List Token) : Except String (Expr × List Token) :=
  match fuel with
  | 0 => .error "expression too deep"
  | fuel + 1 =>
    match ts with
    | .name n :: .sym op :: rest =>
      if ["=", "+=", "-=", "*=", "/="].contains op then do
        let (e, rest) ← expr fuel rest
        .ok (.assign n op e, rest)
      else orExpr fuel ts
    | _ => orExpr fuel ts

/-- Alternatives joined by `||`. -/
def orExpr (fuel : Nat) (ts : List Token) : Except String (Expr × List Token) :=
  match fuel with
  | 0 => .error "expression too deep"
  | fuel + 1 => do
    let (a, rest) ← andExpr fuel ts
    match rest with
    | .sym "||" :: more => do
      let (b, rest) ← orExpr fuel (skipLines more)
      .ok (.binary "||" a b, rest)
    | _ => .ok (a, rest)

/-- Conditions joined by `&&`. -/
def andExpr (fuel : Nat) (ts : List Token) : Except String (Expr × List Token) :=
  match fuel with
  | 0 => .error "expression too deep"
  | fuel + 1 => do
    let (a, rest) ← matchExpr fuel ts
    match rest with
    | .sym "&&" :: more => do
      let (b, rest) ← andExpr fuel (skipLines more)
      .ok (.binary "&&" a b, rest)
    | _ => .ok (a, rest)

/-- A match against a regular expression, `~` or `!~`. -/
def matchExpr (fuel : Nat) (ts : List Token) : Except String (Expr × List Token) :=
  match fuel with
  | 0 => .error "expression too deep"
  | fuel + 1 => do
    let (a, rest) ← compareExpr fuel ts
    match rest with
    | .sym "~" :: more => do
      let (b, rest) ← compareExpr fuel more
      .ok (.binary "~" a b, rest)
    | .sym "!~" :: more => do
      let (b, rest) ← compareExpr fuel more
      .ok (.binary "!~" a b, rest)
    | _ => .ok (a, rest)

/-- A comparison of two concatenations. -/
def compareExpr (fuel : Nat) (ts : List Token) : Except String (Expr × List Token) :=
  match fuel with
  | 0 => .error "expression too deep"
  | fuel + 1 => do
    let (a, rest) ← concatExpr fuel ts
    match rest with
    | .sym op :: more =>
      if comparisons.contains op then do
        let (b, rest) ← concatExpr fuel more
        .ok (.binary op a b, rest)
      else .ok (a, rest)
    | _ => .ok (a, rest)

/-- Operands written side by side, whose texts are joined. -/
def concatExpr (fuel : Nat) (ts : List Token) : Except String (Expr × List Token) :=
  match fuel with
  | 0 => .error "expression too deep"
  | fuel + 1 => do
    let (a, rest) ← addExpr fuel ts
    match rest with
    | t :: _ =>
      if startsOperand t && t != .sym "!" then do
        let (b, rest) ← concatExpr fuel rest
        .ok (.concat a b, rest)
      else .ok (a, rest)
    | [] => .ok (a, rest)

/-- Sums and differences. -/
def addExpr (fuel : Nat) (ts : List Token) : Except String (Expr × List Token) :=
  match fuel with
  | 0 => .error "expression too deep"
  | fuel + 1 => do
    let (a, rest) ← mulExpr fuel ts
    addTail fuel a rest

/-- More terms of a sum, applied from the left. -/
def addTail (fuel : Nat) (a : Expr) (ts : List Token) : Except String (Expr × List Token) :=
  match fuel with
  | 0 => .error "expression too deep"
  | fuel + 1 =>
    match ts with
    | .sym "+" :: more => do
      let (b, rest) ← mulExpr fuel more
      addTail fuel (.binary "+" a b) rest
    | .sym "-" :: more => do
      let (b, rest) ← mulExpr fuel more
      addTail fuel (.binary "-" a b) rest
    | _ => .ok (a, ts)

/-- Products, quotients and remainders. -/
def mulExpr (fuel : Nat) (ts : List Token) : Except String (Expr × List Token) :=
  match fuel with
  | 0 => .error "expression too deep"
  | fuel + 1 => do
    let (a, rest) ← unary fuel ts
    mulTail fuel a rest

/-- More factors of a product, applied from the left. -/
def mulTail (fuel : Nat) (a : Expr) (ts : List Token) : Except String (Expr × List Token) :=
  match fuel with
  | 0 => .error "expression too deep"
  | fuel + 1 =>
    match ts with
    | .sym op :: more =>
      if op == "*" || op == "/" || op == "%" then do
        let (b, rest) ← unary fuel more
        mulTail fuel (.binary op a b) rest
      else .ok (a, ts)
    | _ => .ok (a, ts)

/-- A negation, a sign, or an operand. -/
def unary (fuel : Nat) (ts : List Token) : Except String (Expr × List Token) :=
  match fuel with
  | 0 => .error "expression too deep"
  | fuel + 1 =>
    match ts with
    | .sym "!" :: more => do
      let (e, rest) ← unary fuel more
      .ok (.not e, rest)
    | .sym "-" :: more => do
      let (e, rest) ← unary fuel more
      .ok (.neg e, rest)
    | .sym "+" :: more => unary fuel more
    | _ => primary fuel ts

/-- A number, text, pattern, field, variable, call or parenthesised expression. -/
def primary (fuel : Nat) (ts : List Token) : Except String (Expr × List Token) :=
  match fuel with
  | 0 => .error "expression too deep"
  | fuel + 1 =>
    match ts with
    | .num n :: rest => .ok (.num n, rest)
    | .str s :: rest => .ok (.str s, rest)
    | .regex r :: rest => .ok (.regex r, rest)
    | .sym "$" :: rest => do
      let (e, rest) ← primary fuel rest
      .ok (.field e, rest)
    | .sym "(" :: rest => do
      let (e, rest) ← expr fuel rest
      match rest with
      | .sym ")" :: rest => .ok (e, rest)
      | _ => .error "syntax error: missing )"
    | .sym "++" :: .name n :: rest => .ok (.assign n "+=" (.num 1), rest)
    | .sym "--" :: .name n :: rest => .ok (.assign n "-=" (.num 1), rest)
    | .name n :: .sym "(" :: rest => do
      let (args, rest) ← arguments fuel rest []
      .ok (.call n args, rest)
    | .name "length" :: rest => .ok (.call "length" [], rest)
    | .name n :: .sym "++" :: rest => .ok (.assign n "+=" (.num 1), rest)
    | .name n :: .sym "--" :: rest => .ok (.assign n "-=" (.num 1), rest)
    | .name n :: rest => .ok (.var n, rest)
    | _ => .error "syntax error"

/-- The arguments of a call, up to the closing parenthesis. -/
def arguments (fuel : Nat) (ts : List Token) (acc : List Expr) : Except String (List Expr × List Token) :=
  match fuel with
  | 0 => .error "expression too deep"
  | fuel + 1 =>
    match ts with
    | .sym ")" :: rest => .ok (acc, rest)
    | _ => do
      let (e, rest) ← expr fuel ts
      match rest with
      | .sym "," :: more => arguments fuel more (acc ++ [e])
      | .sym ")" :: more => .ok (acc ++ [e], more)
      | _ => .error "syntax error in call"

end

/-- Expressions separated by commas, up to the end of a statement. -/
def exprList (fuel : Nat) (ts : List Token) (acc : List Expr) : Except String (List Expr × List Token) :=
  match fuel with
  | 0 => .error "expression too deep"
  | fuel + 1 =>
    match ts with
    | [] | .newline :: _ | .sym ";" :: _ | .sym "\x7d" :: _ => .ok (acc, ts)
    | _ => do
      let (e, rest) ← expr fuel ts
      match rest with
      | .sym "," :: more => exprList fuel (skipLines more) (acc ++ [e])
      | _ => .ok (acc ++ [e], rest)

mutual

/-- Statements up to a closing brace. -/
def statements (fuel : Nat) (ts : List Token) (acc : List Stmt) : Except String (List Stmt × List Token) :=
  match fuel with
  | 0 => .error "program too deep"
  | fuel + 1 =>
    match skipEnds ts with
    | .sym "\x7d" :: rest => .ok (acc, rest)
    | [] => .error "syntax error: missing \x7d"
    | ts => do
      let (s, rest) ← statement fuel ts
      statements fuel rest (acc ++ s)

/-- One statement, or the statements of a block. -/
def statement (fuel : Nat) (ts : List Token) : Except String (List Stmt × List Token) :=
  match fuel with
  | 0 => .error "program too deep"
  | fuel + 1 =>
    match ts with
    | .sym "\x7b" :: rest => statements fuel rest []
    | .name "print" :: rest => do
      let (args, rest) ← exprList fuel rest []
      .ok ([.print args], rest)
    | .name "printf" :: rest => do
      let (args, rest) ← exprList fuel rest []
      .ok ([.printf args], rest)
    | .name "next" :: rest => .ok ([.next], rest)
    | .name "exit" :: rest =>
      match rest with
      | [] | .newline :: _ | .sym ";" :: _ | .sym "\x7d" :: _ => .ok ([.exit none], rest)
      | _ => do
        let (e, rest) ← expr fuel rest
        .ok ([.exit (some e)], rest)
    | .name "if" :: .sym "(" :: rest => do
      let (cond, rest) ← expr fuel rest
      match rest with
      | .sym ")" :: rest => do
        let (yes, rest) ← statement fuel (skipLines rest)
        match skipEnds rest with
        | .name "else" :: more => do
          let (no, rest) ← statement fuel (skipLines more)
          .ok ([.branch cond yes no], rest)
        | _ => .ok ([.branch cond yes []], rest)
      | _ => .error "syntax error: missing )"
    | _ => do
      let (e, rest) ← expr fuel ts
      .ok ([.eval e], rest)

end

/-- The rules of a program. -/
def rules (fuel : Nat) (ts : List Token) (acc : List Rule) : Except String (List Rule) :=
  match fuel with
  | 0 => .error "program too long"
  | fuel + 1 =>
    match skipEnds ts with
    | [] => .ok acc
    | .name "BEGIN" :: rest =>
      match skipLines rest with
      | .sym "\x7b" :: body => do
        let (ss, rest) ← statements fuel body []
        rules fuel rest (acc ++ [⟨.begin, some ss⟩])
      | _ => .error "syntax error: BEGIN needs an action"
    | .name "END" :: rest =>
      match skipLines rest with
      | .sym "\x7b" :: body => do
        let (ss, rest) ← statements fuel body []
        rules fuel rest (acc ++ [⟨.finish, some ss⟩])
      | _ => .error "syntax error: END needs an action"
    | .sym "\x7b" :: body => do
      let (ss, rest) ← statements fuel body []
      rules fuel rest (acc ++ [⟨.always, some ss⟩])
    | ts => do
      let (e, rest) ← expr fuel ts
      match rest with
      | .sym "\x7b" :: body => do
        let (ss, rest) ← statements fuel body []
        rules fuel rest (acc ++ [⟨.matching e, some ss⟩])
      | _ => rules fuel rest (acc ++ [⟨.matching e, none⟩])

/-- Read a program. -/
def parseProgram (text : String) : Except String (List Rule) := do
  let ts ← tokenize (text.length + 1) text.toList []
  rules (8 * ts.length + 16) ts []

/-- The integer a text starts with, as awk reads numbers: blanks, a sign, digits. -/
def leadingInt (s : String) : Int :=
  let cs := s.toList.dropWhile (fun c => c == ' ' || c == '\t' || c == '\n')
  let (neg, body) := match cs with
    | '-' :: r => (true, r)
    | '+' :: r => (false, r)
    | r => (false, r)
  let n : Int := (String.ofList (body.takeWhile Char.isDigit)).toNat?.getD 0
  if neg then -n else n

/-- Whether a text read from input looks like a number, so that it compares as one. -/
def looksNumeric (s : String) : Bool :=
  let cs := (s.toList.dropWhile (fun c => c == ' ' || c == '\t')).reverse.dropWhile (fun c => c == ' ' || c == '\t')
  let cs := cs.reverse
  let body := match cs with
    | '-' :: r | '+' :: r => r
    | r => r
  !body.isEmpty && body.all Char.isDigit

namespace Value

/-- The text of a value. -/
def text : Value → String
  | .num n => toString n
  | .str s | .strnum s => s
  | .uninit => ""

/-- The number of a value. -/
def number : Value → Int
  | .num n => n
  | .str s | .strnum s => leadingInt s
  | .uninit => 0

/-- Whether the value is true: a nonzero number, or a nonempty text. -/
def truth : Value → Bool
  | .num n => n != 0
  | .str s => !s.isEmpty
  | .strnum s => if looksNumeric s then leadingInt s != 0 else !s.isEmpty
  | .uninit => false

/-- Whether the value compares as a number. -/
def numeric : Value → Bool
  | .num _ | .uninit => true
  | .strnum s => looksNumeric s
  | .str _ => false

end Value

/-- A record being read by a program. -/
structure Run where
  vars : List (String × Value)
  record : String
  fields : List String
  nr : Nat
  out : List (Nat × String)
  deriving Inhabited

/-- The fields of a record, split at runs of blanks or at the separator. -/
def splitFields (fs : String) (record : String) : List String :=
  if fs == " " then wordsOf record
  else if record.isEmpty then [] else record.splitOn fs

namespace Run

/-- The value of a variable. -/
def get (r : Run) (name : String) : Value :=
  match name with
  | "NR" => .num r.nr
  | "NF" => .num r.fields.length
  | _ => ((r.vars.find? (·.1 == name)).map (·.2)).getD .uninit

/-- Set a variable. -/
def set (r : Run) (name : String) (v : Value) : Run :=
  { r with vars := (name, v) :: r.vars.filter (·.1 != name) }

/-- The value of field `i`; field 0 is the whole record. -/
def field (r : Run) (i : Int) : Value :=
  if i == 0 then .strnum r.record
  else match r.fields[(i.toNat - 1)]? with
    | some f => if i > 0 then .strnum f else .uninit
    | none => .uninit

end Run

/-- Compare two values: as numbers when both count as numbers, otherwise as texts. -/
def compareValues (op : String) (a b : Value) : Bool :=
  if a.numeric && b.numeric then
    let x := a.number
    let y := b.number
    match op with
    | "==" => x == y | "!=" => x != y | "<" => x < y | "<=" => x ≤ y | ">" => x > y | _ => x ≥ y
  else
    let x := a.text
    let y := b.text
    match op with
    | "==" => x == y | "!=" => x != y | "<" => x < y | "<=" => x ≤ y | ">" => y < x | _ => y ≤ x

/-- Whether a text matches a regular expression written as awk writes them. -/
def regexMatches (pattern text : String) : Bool :=
  match Regex.parse pattern true with
  | .ok re => re.test text
  | .error _ => false

/-- How a statement list ended. -/
inductive Flow where
  | normal
  | next
  | exit (code : Nat)
  deriving Inhabited

/-- The value of an expression, and the run after its assignments. -/
def eval (fuel : Nat) (r : Run) (e : Expr) : Value × Run :=
  match fuel with
  | 0 => (.uninit, r)
  | fuel + 1 =>
    match e with
    | .num n => (.num n, r)
    | .str s => (.str s, r)
    | .regex p => (.num (if regexMatches p r.record then 1 else 0), r)
    | .field i =>
      let (v, r) := eval fuel r i
      (r.field v.number, r)
    | .var n => (r.get n, r)
    | .not a =>
      let (v, r) := eval fuel r a
      (.num (if v.truth then 0 else 1), r)
    | .neg a =>
      let (v, r) := eval fuel r a
      (.num (-v.number), r)
    | .concat a b =>
      let (x, r) := eval fuel r a
      let (y, r) := eval fuel r b
      (.str (x.text ++ y.text), r)
    | .assign n op a =>
      let (v, r) := eval fuel r a
      let v := match op with
        | "+=" => .num ((r.get n).number + v.number)
        | "-=" => .num ((r.get n).number - v.number)
        | "*=" => .num ((r.get n).number * v.number)
        | "/=" => .num (Int.tdiv (r.get n).number v.number)
        | _ => v
      (v, r.set n v)
    | .binary "&&" a b =>
      let (x, r) := eval fuel r a
      if !x.truth then (.num 0, r) else
      let (y, r) := eval fuel r b
      (.num (if y.truth then 1 else 0), r)
    | .binary "||" a b =>
      let (x, r) := eval fuel r a
      if x.truth then (.num 1, r) else
      let (y, r) := eval fuel r b
      (.num (if y.truth then 1 else 0), r)
    | .binary op a b =>
      let (x, r) := eval fuel r a
      let pattern := match b with
        | .regex p => some p
        | _ => none
      let (y, r) := eval fuel r b
      let pat := pattern.getD y.text
      match op with
      | "~" => (.num (if regexMatches pat x.text then 1 else 0), r)
      | "!~" => (.num (if regexMatches pat x.text then 0 else 1), r)
      | "+" => (.num (x.number + y.number), r)
      | "-" => (.num (x.number - y.number), r)
      | "*" => (.num (x.number * y.number), r)
      | "/" => (.num (Int.tdiv x.number y.number), r)
      | "%" => (.num (Int.tmod x.number y.number), r)
      | _ => (.num (if compareValues op x y then 1 else 0), r)
    | .call f args =>
      let (vs, r) := args.foldl (fun (vs, r) a =>
        let (v, r) := eval fuel r a
        (vs ++ [v], r)) ([], r)
      let arg (i : Nat) : Value := vs[i]?.getD .uninit
      match f with
      | "length" => (.num (if vs.isEmpty then r.record.length else (arg 0).text.length), r)
      | "substr" =>
        let s := (arg 0).text.toList
        let start := (arg 1).number
        let len : Int := if vs.length > 2 then (arg 2).number else s.length
        let from_ := max start 1
        let upto := start + len
        let taken := (s.drop (from_.toNat - 1)).take (upto - from_).toNat
        (.str (String.ofList taken), r)
      | "index" =>
        let s := (arg 0).text
        let t := (arg 1).text
        let pos := (List.range (s.length + 1)).find? fun i => (s.drop i).startsWith t
        (.num (match pos with | some i => if t.isEmpty then 0 else i + 1 | none => 0), r)
      | "tolower" => (.str (arg 0).text.toLower, r)
      | "toupper" => (.str (arg 0).text.toUpper, r)
      | "int" => (.num (arg 0).number, r)
      | "sprintf" =>
        (.str (formatOnce (parseFormat (arg 0).text) (vs.drop 1 |>.map Value.text) false).1, r)
      | _ => (.uninit, r)

/-- Run statements over the current record. -/
def exec (fuel : Nat) (r : Run) (ss : List Stmt) : Flow × Run :=
  match fuel with
  | 0 => (.normal, r)
  | fuel + 1 =>
    match ss with
    | [] => (.normal, r)
    | s :: rest =>
      let (flow, r) : Flow × Run := match s with
        | .print args =>
          if args.isEmpty then (.normal, { r with out := r.out ++ [(1, r.record ++ "\n")] })
          else
            let (vs, r) := args.foldl (fun (vs, r) a =>
              let (v, r) := eval fuel r a
              (vs ++ [v.text], r)) ([], r)
            (.normal, { r with out := r.out ++ [(1, " ".intercalate vs ++ "\n")] })
        | .printf args =>
          let (vs, r) := args.foldl (fun (vs, r) a =>
            let (v, r) := eval fuel r a
            (vs ++ [v.text], r)) ([], r)
          match vs with
          | fmt :: rest => (.normal, { r with out := r.out ++ [(1, (formatOnce (parseFormat fmt) rest false).1)] })
          | [] => (.normal, r)
        | .eval e => (.normal, (eval fuel r e).2)
        | .next => (.next, r)
        | .exit code =>
          match code with
          | some e =>
            let (v, r) := eval fuel r e
            (.exit v.number.toNat, r)
          | none => (.exit 0, r)
        | .branch cond yes no =>
          let (v, r) := eval fuel r cond
          exec fuel r (if v.truth then yes else no)
      match flow with
      | .normal => exec fuel r rest
      | other => (other, r)

/-- Run the rules of one kind over the current record. -/
def runRules (fuel : Nat) (r : Run) (rs : List Rule) (pick : When → Option (Option Expr)) : Flow × Run :=
  match rs with
  | [] => (.normal, r)
  | rule :: rest =>
    match pick rule.when with
    | none => runRules fuel r rest pick
    | some cond =>
      let (hit, r) := match cond with
        | some e =>
          let (v, r) := eval fuel r e
          (v.truth, r)
        | none => (true, r)
      if !hit then runRules fuel r rest pick
      else
        let (flow, r) := match rule.action with
          | some ss => exec fuel r ss
          | none => (.normal, { r with out := r.out ++ [(1, r.record ++ "\n")] })
        match flow with
        | .normal => runRules fuel r rest pick
        | other => (other, r)

end Awk

/-- `awk`: run a program over the lines of the files, or of the input. -/
def awk (c : Call) : Done :=
  let (vals, _, ops) := optionValues ['v', 'F', 'f'] c.args
  match ops with
  | [] => c.fail 2 "usage: awk [-F value] [-v var=value] [--] 'program text' [file ...]"
  | prog :: files =>
    match Awk.parseProgram prog with
    | .error m => c.fail 2 ("line 1: " ++ m)
    | .ok rs =>
      let fs := ((vals.find? (·.1 == 'F')).map (·.2)).getD " "
      let assigns := vals.filterMap fun (o, v) =>
        if o == 'v' then
          match v.splitOn "=" with
          | name :: rest => some (name, Awk.Value.strnum ("=".intercalate rest))
          | [] => none
        else none
      let fuel := 64 * (prog.length + 8)
      let start : Awk.Run := ⟨assigns, "", [], 0, []⟩
      let (flow, run) := Awk.runRules fuel start rs fun
        | .begin => some none
        | _ => none
      let inputs := sources c files
      let failed := inputs.filterMap fun (name, t) =>
        match t with
        | .error e => some (name, e)
        | .ok _ => none
      match failed with
      | (name, e) :: _ => c.fail 2 ("cannot open " ++ name ++ " (" ++ faultText e ++ ")")
      | [] =>
        let lines := inputs.flatMap fun (_, t) => textLines (t.toOption.getD "")
        let (flow, run) := match flow with
          | .exit k => (Awk.Flow.exit k, run)
          | _ => lines.foldl (fun (flow, run) line =>
              match flow with
              | .exit k => (.exit k, run)
              | _ =>
                let run := { run with record := line, fields := Awk.splitFields fs line, nr := run.nr + 1 }
                let (f, run) := Awk.runRules fuel run rs fun
                  | .always => some none
                  | .matching e => some (some e)
                  | _ => none
                match f with
                | .exit k => (.exit k, run)
                | _ => (.normal, run)) (Awk.Flow.normal, run)
        let (flow, run) := Awk.runRules fuel run rs fun
          | .finish => some none
          | _ => none
        let code := match flow with
          | .exit k => k
          | _ => 0
        ⟨code, run.out, c.files⟩

end Provisioning.Shell
