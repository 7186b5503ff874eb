/-!
# Arithmetic expansion

The integer expressions of `$((...))`: numbers, variables (an unset or empty
one counts as 0), parentheses, unary `-`, `+` and `!`, `*`, `/` and `%`
(dividing toward zero), `+` and `-`, comparisons giving 1 or 0, `&&` and `||`.
Division by zero is an error, as in the shell.
-/

namespace Provisioning.Shell.Arith

/-- A token of an arithmetic expression. -/
inductive Token where
  | num (n : Int)
  | name (s : String)
  | sym (s : String)
  deriving Repr, Inhabited, BEq

/-- The two-character operators. -/
def pairs : List String := ["<=", ">=", "==", "!=", "&&", "||", "<<", ">>"]

/-- The tokens of an expression text; each step reads at least a character. -/
def tokens : Nat → List Char → List Token → Except String (List Token)
  | 0, _, _ => .error "expression too long"
  | _, [], acc => .ok acc.reverse
  | fuel + 1, c :: rest, acc =>
    if c == ' ' || c == '\t' || c == '\n' then tokens fuel rest acc
    else if c.isDigit then
      let (ds, after) := (c :: rest).span Char.isDigit
      tokens fuel after (.num ((String.ofList ds).toNat?.getD 0) :: acc)
    else if c.isAlpha || c == '_' then
      let (cs, after) := (c :: rest).span fun d => d.isAlphanum || d == '_'
      tokens fuel after (.name (String.ofList cs) :: acc)
    else
      match rest with
      | d :: more =>
        if pairs.contains (String.ofList [c, d]) then tokens fuel more (.sym (String.ofList [c, d]) :: acc)
        else tokens fuel rest (.sym (String.singleton c) :: acc)
      | [] => tokens fuel rest (.sym (String.singleton c) :: acc)

/-- The levels of binary operators, loosest first. -/
def levels : List (List String) :=
  [["||"], ["&&"], ["==", "!="], ["<", "<=", ">", ">="], ["+", "-"], ["*", "/", "%"]]

/-- Apply a binary operator. -/
def applyOp (op : String) (a b : Int) : Except String Int :=
  let bool (p : Bool) : Int := if p then 1 else 0
  match op with
  | "||" => .ok (bool (a != 0 || b != 0))
  | "&&" => .ok (bool (a != 0 && b != 0))
  | "==" => .ok (bool (a == b))
  | "!=" => .ok (bool (a != b))
  | "<" => .ok (bool (a < b))
  | "<=" => .ok (bool (a ≤ b))
  | ">" => .ok (bool (a > b))
  | ">=" => .ok (bool (a ≥ b))
  | "+" => .ok (a + b)
  | "-" => .ok (a - b)
  | "*" => .ok (a * b)
  | "/" => if b == 0 then .error "division by zero" else .ok (Int.tdiv a b)
  | "%" => if b == 0 then .error "division by zero" else .ok (Int.tmod a b)
  | _ => .error "syntax error"

/-- The integer value of a variable's text; anything but a number counts as 0. -/
def varValue (lookup : String → Option String) (n : String) : Int :=
  ((lookup n).bind String.toInt?).getD 0

mutual

/-- An expression at a level of binary operators; below the last level, a unary one. -/
def level (lookup : String → Option String) (fuel : Nat) (ls : List (List String)) (ts : List Token) :
    Except String (Int × List Token) :=
  match fuel with
  | 0 => .error "expression too deep"
  | fuel + 1 =>
    match ls with
    | [] => unary lookup fuel ts
    | ops :: lower => do
      let (a, rest) ← level lookup fuel lower ts
      levelTail lookup fuel ops lower a rest

/-- More operands at one level, applied from the left. -/
def levelTail (lookup : String → Option String) (fuel : Nat) (ops : List String) (lower : List (List String))
    (a : Int) (ts : List Token) : Except String (Int × List Token) :=
  match fuel with
  | 0 => .error "expression too deep"
  | fuel + 1 =>
    match ts with
    | .sym op :: rest =>
      if ops.contains op then do
        let (b, rest) ← level lookup fuel lower rest
        let v ← applyOp op a b
        levelTail lookup fuel ops lower v rest
      else .ok (a, ts)
    | _ => .ok (a, ts)

/-- A unary operator, a number, a variable or a parenthesised expression. -/
def unary (lookup : String → Option String) (fuel : Nat) (ts : List Token) : Except String (Int × List Token) :=
  match fuel with
  | 0 => .error "expression too deep"
  | fuel + 1 =>
    match ts with
    | .sym "-" :: rest => do
      let (v, rest) ← unary lookup fuel rest
      .ok (-v, rest)
    | .sym "+" :: rest => unary lookup fuel rest
    | .sym "!" :: rest => do
      let (v, rest) ← unary lookup fuel rest
      .ok (if v == 0 then 1 else 0, rest)
    | .sym "(" :: rest => do
      let (v, rest) ← level lookup fuel levels rest
      match rest with
      | .sym ")" :: rest => .ok (v, rest)
      | _ => .error "missing )"
    | .num n :: rest => .ok (n, rest)
    | .name n :: rest => .ok (varValue lookup n, rest)
    | _ => .error "syntax error"

end

/-- The value of an expression text. -/
def evaluate (lookup : String → Option String) (text : String) : Except String Int := do
  let ts ← tokens (text.length + 1) text.toList []
  if ts.isEmpty then return 0
  let (v, rest) ← level lookup (16 * ts.length + 32) levels ts
  if rest.isEmpty then .ok v else .error "syntax error"

end Provisioning.Shell.Arith
