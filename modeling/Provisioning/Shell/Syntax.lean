/-!
# Shell scripts as trees

The command language of seed scripts and host tools: the POSIX shell, as far as
scripts of this kind use it. A script is a list of commands; a command is a
simple command, a compound one, or two commands joined by `&&`, `||` or `|`.
Words keep their pieces apart, because quoting decides later whether an
expansion is split into fields and whether its wildcards match file names.
-/

namespace Provisioning.Shell

/-- The two shells a script can be run by. They differ in how `echo` reads
backslashes and in how errors are worded. -/
inductive Dialect where
  /-- The plain POSIX shell: `sh` and `dash`. -/
  | posix
  /-- The Bourne-again shell. -/
  | bash
  deriving DecidableEq, Repr, Inhabited

/-- What `${name op word}` does when the variable is unset (or, with a colon,
also when it is empty). -/
inductive Fallback where
  /-- `-`: use the word instead. -/
  | useWord
  /-- `=`: use the word and assign it. -/
  | assign
  /-- `+`: use the word only when the variable is set. -/
  | alternative
  /-- `?`: fail with the word as message. -/
  | fail
  deriving DecidableEq, Repr, Inhabited

/-- How a redirection connects a descriptor. -/
inductive RedirectKind where
  /-- `>` and `>|`: truncate or create the file. -/
  | write
  /-- `>>`: append to the file. -/
  | append
  /-- `<`: read the file. -/
  | read
  /-- `>&` and `<&`: copy another descriptor. -/
  | duplicate
  deriving DecidableEq, Repr, Inhabited

mutual

/-- One piece of a word before expansion. -/
inductive Piece where
  /-- Unquoted text: its wildcards may match file names. -/
  | plain (text : String)
  /-- Quoted or escaped text, which stands for itself. -/
  | quoted (text : String)
  /-- A parameter: a variable, a positional argument or a special one such as `$?`. -/
  | param (name : String) (inQuotes : Bool)
  /-- The length of a parameter's value, `${#name}`. -/
  | length (name : String) (inQuotes : Bool)
  /-- A parameter with a fallback word, such as `${name:-word}`. -/
  | fallback (name : String) (colon : Bool) (kind : Fallback) (word : List Piece) (inQuotes : Bool)
  /-- A parameter with a pattern cut off its start or (with `fromEnd`) its end,
  the shortest match or (with `longest`) the longest: `${name%pattern}`. -/
  | trim (name : String) (fromEnd longest : Bool) (pattern : List Piece) (inQuotes : Bool)
  /-- The output of a script, `$(...)`, with trailing newlines removed. -/
  | output (body : List Command) (inQuotes : Bool)
  /-- An arithmetic expansion, `$((...))`, kept as its text. -/
  | arith (text : List Piece) (inQuotes : Bool)

/-- A command of the shell. -/
inductive Command where
  /-- Assignments, words and redirections, started at a line of the script. -/
  | simple (line : Nat) (assigns : List (String × List Piece)) (words : List (List Piece))
      (redirects : List (Nat × RedirectKind × List Piece))
  /-- A list of commands run in this shell, `{ ...; }`. -/
  | group (body : List Command) (redirects : List (Nat × RedirectKind × List Piece))
  /-- A list of commands run in a copy of this shell, `( ... )`. -/
  | subshell (body : List Command) (redirects : List (Nat × RedirectKind × List Piece))
  /-- `if`: conditions with their bodies, tried in order, and the `else` body. -/
  | branch (arms : List (List Command × List Command)) (otherwise : List Command)
      (redirects : List (Nat × RedirectKind × List Piece))
  /-- `for name in words; do body; done`; without words it walks the arguments. -/
  | forEach (name : String) (items : Option (List (List Piece))) (body : List Command)
      (redirects : List (Nat × RedirectKind × List Piece))
  /-- `while` (or, with `untilTrue`, `until`) a condition holds, run the body. -/
  | loop (untilTrue : Bool) (test : List Command) (body : List Command)
      (redirects : List (Nat × RedirectKind × List Piece))
  /-- `case word in patterns) body;; esac`. -/
  | choose (subject : List Piece) (arms : List (List (List Piece) × List Command))
      (redirects : List (Nat × RedirectKind × List Piece))
  /-- A function definition, `name() body`. -/
  | define (name : String) (body : Command)
  /-- A pipeline, `a | b | c`: each stage reads what the one before wrote. -/
  | pipe (stages : List Command)
  /-- `! command`: the status is inverted. -/
  | negate (body : Command)
  /-- `a && b`: the second runs only if the first succeeded. -/
  | both (first second : Command)
  /-- `a || b`: the second runs only if the first failed. -/
  | either (first second : Command)
  /-- A command run in the background, `a &`; here it runs to its end at once. -/
  | background (body : Command)

end

/-- The words that open or close a compound command; they are reserved only
where a command may start. -/
def reservedWords : List String :=
  ["if", "then", "elif", "else", "fi", "for", "in", "do", "done", "while", "until",
    "case", "esac", "\x7b", "\x7d", "!"]

/-- A name that a variable may have: a letter or underscore, then letters,
digits and underscores. -/
def isName (s : String) : Bool :=
  match s.toList with
  | [] => false
  | c :: cs => (c.isAlpha || c == '_') && cs.all fun d => d.isAlphanum || d == '_'

example : isName "" = false := by decide

end Provisioning.Shell
