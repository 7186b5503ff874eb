import Provisioning.Shell.Syntax

/-!
# Tokens of a script

A script's text reads as words, operators and line ends. A word keeps its
pieces; an operator may carry the descriptor written before it (`2>`). Each
token remembers its line, which error messages name.
-/

namespace Provisioning.Shell

/-- One token of a script. -/
inductive Token where
  /-- A word, split into its pieces. -/
  | word (pieces : List Piece) (line : Nat)
  /-- An operator such as `;`, `&&`, `|` or `>`, with the descriptor written before it. -/
  | op (text : String) (fd : Option Nat) (line : Nat)
  /-- The end of a line. -/
  | newline (line : Nat)

namespace Token

/-- The line a token stands on. -/
def line : Token → Nat
  | .word _ l => l
  | .op _ _ l => l
  | .newline l => l

/-- The token as one plain word, if it is one: reserved words are recognised
only in this form. -/
def bare? : Token → Option String
  | .word [.plain s] _ => some s
  | _ => none

/-- Whether the token is the operator `s`. -/
def isOp (s : String) : Token → Bool
  | .op t none _ => t == s
  | _ => false

/-- How the token is quoted in a syntax error. -/
def shown : Token → String
  | .word [.plain s] _ => s
  | .word [.quoted s] _ => s
  | .word _ _ => "word"
  | .op t _ _ => t
  | .newline _ => "newline"

end Token

/-- A script that cannot be read: the line and the shell's words for the fault. -/
structure SyntaxError where
  line : Nat
  message : String
  deriving Repr, Inhabited

/-- The fault of a token where none of its kind may stand. -/
def SyntaxError.unexpected (t : Option Token) (line : Nat) (expecting : Option String) : SyntaxError :=
  let what := match t with
    | some t => "\"" ++ t.shown ++ "\" unexpected"
    | none => "end of file unexpected"
  let tail := match expecting with
    | some e => " (expecting \"" ++ e ++ "\")"
    | none => ""
  ⟨(t.map Token.line).getD line, "Syntax error: " ++ what ++ tail⟩

end Provisioning.Shell
