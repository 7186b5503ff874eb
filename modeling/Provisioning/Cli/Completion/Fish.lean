import Provisioning.Cli.Completion.Bash
/-!
Completion scripts for fish.

The script starts with three functions: one printing the option
specification of the top command for `argparse`, one telling whether a
subcommand has been given yet (and printing it), and one telling whether
the given subcommand is one of its arguments. Then comes one `complete`
line per option, switch and subcommand, command after command, depth
first. Each line carries the condition under which it applies: for the top
command that no subcommand has been given, for the others the path of
subcommands leading to them and, when they have subcommands themselves,
that none of those has been given yet.

Options that take a value say so with `-r`, and `-F` when it is a path; a
command without positionals offers its subcommands only (`-f`).
Descriptions are quoted with backslashes before backslashes and quotes.
-/

namespace Provisioning.Cli

namespace Fish

/-- Escape a description for single quotes. -/
def escapeHelp (s : String) : String :=
  String.join (s.toList.map fun c =>
    match c with
    | '\\' => "\\\\"
    | '\'' => "\\'"
    | c => c.toString)

/-- The `argparse` specification of the options of a command. -/
def optionSpecs (c : Command) : String :=
  String.join (c.options.map fun a =>
    let short := (a.short.map Char.toString).getD ""
    let long := match a.long with
      | some l => (if short.isEmpty then "" else "/") ++ l
      | none => ""
    " " ++ short ++ long ++ (if a.takesValue then "=" else ""))

/-- The names part of a `complete` line for an argument. -/
def names (a : Arg) : String :=
  (a.short.map fun s => " -s " ++ s.toString).getD "" ++ (a.long.map fun l => " -l " ++ l).getD ""

/-- The description part of a `complete` line. -/
def description (text : String) : String :=
  if text.isEmpty then "" else " -d '" ++ escapeHelp text ++ "'"

/-- How the value of an option is completed. -/
def valuePart (a : Arg) : String :=
  if !a.choices.isEmpty then
    " -r -f -a \"" ++ "\n".intercalate (a.choices.map fun v => v ++ "\\t''") ++ "\""
  else if a.isPath then " -r -F" else " -r"

/-- The `complete` lines of one command, reached by `parents` below the top command. -/
def lines (bin : String) (parents : List String) (c : Command) : List String :=
  let condition :=
    if parents.isEmpty then
      if c.subcommands.isEmpty then "" else " -n \"__fish_" ++ bin ++ "_needs_command\""
    else
      " -n \"__fish_" ++ bin ++ "_using_subcommand " ++ " ".intercalate parents ++
        (if c.subcommands.isEmpty then ""
         else "; and not __fish_seen_subcommand_from " ++ " ".intercalate (c.subcommands.map (·.name))) ++ "\""
  let base := "complete -c " ++ bin ++ condition
  let noFiles := if c.positionals.isEmpty then " -f" else ""
  c.valueOptions.map (fun a => base ++ names a ++ description a.help ++ valuePart a) ++
  c.switches.map (fun a => base ++ names a ++ description a.help) ++
  c.subcommands.map (fun s => base ++ noFiles ++ " -a \"" ++ s.name ++ "\"" ++ description s.about)

/-- The fish completion script of a built command. -/
def script (root : Command) : String :=
  let bin := root.name
  let body := (Command.walk [] root).flatMap fun (path, c) => lines bin (path.drop 1) c
  "# Print an optspec for argparse to handle cmd's options that are independent of any subcommand.\n" ++
  "function __fish_" ++ bin ++ "_global_optspecs\n" ++
  "    string join \\n" ++ optionSpecs root ++ "\n" ++
  "end\n\n" ++
  "function __fish_" ++ bin ++ "_needs_command\n" ++
  "    # Figure out if the current invocation already has a command.\n" ++
  "    set -l cmd (commandline -opc)\n" ++
  "    set -e cmd[1]\n" ++
  "    argparse -s (__fish_" ++ bin ++ "_global_optspecs) -- $cmd 2>/dev/null\n" ++
  "    or return\n" ++
  "    if set -q argv[1]\n" ++
  "        # Also print the command, so this can be used to figure out what it is.\n" ++
  "        echo $argv[1]\n" ++
  "        return 1\n" ++
  "    end\n" ++
  "    return 0\n" ++
  "end\n\n" ++
  "function __fish_" ++ bin ++ "_using_subcommand\n" ++
  "    set -l cmd (__fish_" ++ bin ++ "_needs_command)\n" ++
  "    test -z \"$cmd\"\n" ++
  "    and return 1\n" ++
  "    contains -- $cmd[1] $argv\n" ++
  "end\n\n" ++
  String.join (body.map (· ++ "\n"))

end Fish

end Provisioning.Cli
