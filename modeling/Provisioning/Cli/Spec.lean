/-!
Command-line interfaces: commands and their arguments.

A command has a name, a one-line description (and possibly a longer one),
arguments, and subcommands. An argument is a switch (`-v`, `--verbose`), an
option that takes a value (`-c <CONFIG>`, `--config <CONFIG>`), or a
positional value (`<NAME>`); an option or positional may collect values
over several occurrences. An argument may fall back on an environment
variable, be required (or required unless another is given), refuse to
appear with another, and check its value: any text, a non-empty path, one
of a fixed list, or whatever a reader accepts.

A declared command is *built* before use: each argument that is not
positional is numbered in declaration order, which is its place in help;
the global arguments of a command are handed down to every subcommand
after the subcommand's own arguments; every command gets the `-h`/`--help`
switch (whose text says whether a longer help exists) and a command with a
version the `-V`/`--version` switch; and a command with subcommands gets a
`help` subcommand. For parsing, `help` takes the names of the command to
describe; for completion scripts it is expanded into a copy of the
subcommand tree, without arguments, ending in `help` itself.

## Main statements

* `walk_head` — walking a command starts with the command itself.
-/

namespace Provisioning.Cli

/-- What a value of an argument may be. -/
inductive ValueCheck where
  /-- Any text. -/
  | any
  /-- A path: any text but the empty one. -/
  | path
  /-- One of a fixed list, which help and errors show. -/
  | oneOf (values : List String)
  /-- Text a reader accepts; for text it refuses, the reader gives the reason. -/
  | reads (refusal : String → Option String)
  deriving Inhabited

/-- How an argument takes effect. -/
inductive Action where
  /-- A switch, on when given. -/
  | flag
  /-- One value, given at most once. -/
  | set
  /-- Values collected over every occurrence. -/
  | append
  /-- Show help. -/
  | help
  /-- Show the version. -/
  | version
  deriving DecidableEq, Repr, Inhabited

/-- An argument of a command. -/
structure Arg where
  id : String
  short : Option Char := none
  long : Option String := none
  /-- The name of the value in help, as in `<CONFIG>`. -/
  valueName : String := ""
  help : String := ""
  /-- A longer help, shown by `--help` in place of `help`. -/
  longHelp : Option String := none
  /-- The environment variable whose value stands in when the argument is absent. -/
  env : Option String := none
  action : Action := .flag
  positional : Bool := false
  required : Bool := false
  /-- The argument is required unless one of these is given. -/
  requiredUnless : List String := []
  /-- Arguments that may not be given together with this one. -/
  conflicts : List String := []
  check : ValueCheck := .any
  /-- Handed down to every subcommand. -/
  global : Bool := false
  /-- The place in help; the built-in switches come last. -/
  order : Nat := 999
  deriving Inhabited

namespace Arg

/-- Whether the argument takes values. -/
def takesValue (a : Arg) : Bool := a.positional || a.action == .set || a.action == .append

/-- Whether the argument collects values over occurrences. -/
def isMultiple (a : Arg) : Bool := a.action == .append

/-- The values the argument is limited to, if any. -/
def choices (a : Arg) : List String :=
  match a.check with
  | .oneOf vs => vs
  | _ => []

/-- Whether the argument's values are paths. -/
def isPath (a : Arg) : Bool :=
  match a.check with
  | .path => true
  | _ => false

/-- The `-h`/`--help` switch; its text tells whether a longer help exists. -/
def helpSwitch (longExists : Bool) : Arg :=
  { id := "help", short := some 'h', long := some "help", action := .help,
    help := if longExists then "Print help (see more with '--help')" else "Print help",
    longHelp := if longExists then some "Print help (see a summary with '-h')" else none }

/-- The `-V`/`--version` switch. -/
def versionSwitch : Arg :=
  { id := "version", short := some 'V', long := some "version", action := .version,
    help := "Print version" }

/-- Number the arguments that are not positional in their order. -/
def numbered (args : List Arg) : List Arg :=
  let rec go : Nat → List Arg → List Arg
    | _, [] => []
    | n, a :: rest => if a.positional then a :: go n rest else { a with order := n } :: go (n + 1) rest
  go 0 args

end Arg

/-- A command, with its arguments and subcommands. -/
structure Command where
  name : String
  about : String := ""
  longAbout : Option String := none
  version : Option String := none
  args : List Arg := []
  subcommands : List Command := []
  /-- A subcommand must be given. -/
  subcommandRequired : Bool := false
  /-- With no argument at all, help is shown instead, as an error. -/
  helpWhenEmpty : Bool := false
  /-- The command has the `-h`/`--help` switch. -/
  helpFlag : Bool := true
  /-- The command is the built-in `help`. -/
  isHelp : Bool := false
  deriving Inhabited

/-- The description of the `help` subcommand. -/
def helpAbout : String := "Print this message or the help of the given subcommand(s)"

namespace Command

/-- Whether a longer help than the short one exists. -/
def longHelpExists (c : Command) : Bool := c.longAbout.isSome || c.args.any (·.longHelp.isSome)

/-- The positional arguments, in order. -/
def positionals (c : Command) : List Arg := c.args.filter (·.positional)

/-- The arguments that are not positional, in declaration order. -/
def options (c : Command) : List Arg := c.args.filter (!·.positional)

/-- The argument of an identifier. -/
def arg? (c : Command) (id : String) : Option Arg := c.args.find? (·.id == id)

/-- The subcommand of a name. -/
def sub? (c : Command) (name : String) : Option Command := c.subcommands.find? (·.name == name)

mutual

/-- A copy of a command for the expanded `help` tree: names and descriptions only. -/
def copyForHelp : Command → Command
  | { name, about, subcommands, .. } =>
    { name, about, helpFlag := false, isHelp := true, subcommands := copyAllForHelp subcommands }
termination_by structural c => c

/-- Copies of commands for the expanded `help` tree. -/
def copyAllForHelp : List Command → List Command
  | [] => []
  | c :: rest => copyForHelp c :: copyAllForHelp rest
termination_by structural cs => cs

end

/-- The built-in `help` subcommand of a command with the given subcommands. -/
def helpCommand (expand : Bool) (subs : List Command) : Command :=
  if expand then
    { name := "help", about := helpAbout, helpFlag := false, isHelp := true,
      subcommands := copyAllForHelp subs ++ [{ name := "help", about := helpAbout, helpFlag := false, isHelp := true }] }
  else
    { name := "help", about := helpAbout, helpFlag := false, isHelp := true,
      args := [
        { id := "subcommand", valueName := "COMMAND", help := "Print help for the subcommand(s)",
          action := .append, positional := true }] }

mutual

/-- Build a command: number its arguments, add what it inherits and its built-in switches,
build its subcommands and add `help` (expanded for completion scripts when `expand`). -/
def build (expand : Bool) (inherited : List Arg) : Command → Command
  | c@{ subcommands, .. } =>
    let own := Arg.numbered c.args
    let args := own ++ inherited.filter fun g => !own.any (·.id == g.id)
    let globals := args.filter (·.global)
    let builtins := (if c.helpFlag then [Arg.helpSwitch c.longHelpExists] else []) ++
      (if c.version.isSome then [Arg.versionSwitch] else [])
    let helpSub := if subcommands.isEmpty then [] else [helpCommand expand subcommands]
    { c with args := args ++ builtins, subcommands := buildAll expand globals subcommands ++ helpSub }
termination_by structural c => c

/-- Build subcommands. -/
def buildAll (expand : Bool) (inherited : List Arg) : List Command → List Command
  | [] => []
  | c :: rest => build expand inherited c :: buildAll expand inherited rest
termination_by structural cs => cs

end

mutual

/-- Every command of a tree with the names leading to it, the command first, then its
subcommands in order, depth first. -/
def walk (path : List String) : Command → List (List String × Command)
  | c@{ name, subcommands, .. } => (path ++ [name], c) :: walkAll (path ++ [name]) subcommands
termination_by structural c => c

/-- Every command of some trees, in order. -/
def walkAll (path : List String) : List Command → List (List String × Command)
  | [] => []
  | c :: rest => walk path c ++ walkAll path rest
termination_by structural cs => cs

end

/-- The command a path of names leads to from this one. -/
def follow (c : Command) : List String → Option Command
  | [] => some c
  | n :: rest => (c.sub? n).bind fun s => follow s rest

theorem walk_head (path : List String) (c : Command) :
    (walk path c).head? = some (path ++ [c.name], c) := by
  cases c; simp [walk]

end Command

end Provisioning.Cli
