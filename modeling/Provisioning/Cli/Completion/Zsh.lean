import Provisioning.Cli.Completion.Bash
/-!
Completion scripts for zsh.

The script is a `#compdef` function that hands each command's arguments
to `_arguments`: first the options that take a value (`'-c+[help]:CONFIG:_files'`,
`'--config=[help]:CONFIG:_files'`, with a `*` before those that collect
values), then the switches (`'-v[help]'`), then the positionals
(`':name -- help:_default'`, with one more `:` when optional and a `*` in
front when they collect values). A command with subcommands ends its list
with a pointer to its `_commands` function and a state named after it; the
`case $state` block below it holds the same for every subcommand, nested
as deep as the commands are.

After the main function come the `_commands` functions, one per command,
that describe its subcommands; they are ordered by the command's path.
Descriptions are quoted for zsh: backslashes, quotes, brackets, colons,
dollars and backquotes are escaped and line breaks become spaces.
-/

namespace Provisioning.Cli

namespace Zsh

/-- Escape a description for an `_arguments` specification. -/
def escapeHelp (s : String) : String :=
  String.join (s.toList.map fun c =>
    match c with
    | '\\' => "\\\\"
    | '\'' => "'\\''"
    | '[' => "\\["
    | ']' => "\\]"
    | ':' => "\\:"
    | '$' => "\\$"
    | '\x60' => "\\\x60"
    | '\n' => " "
    | c => c.toString)

/-- Escape a positional's description. -/
def escapePositional (s : String) : String :=
  String.join (s.toList.map fun c =>
    match c with
    | '[' => "\\["
    | ']' => "\\]"
    | '\'' => "'\\''"
    | ':' => "\\:"
    | c => c.toString)

/-- How the values of an argument are completed. -/
def valueAction (a : Arg) : String :=
  if !a.choices.isEmpty then "(" ++ " ".intercalate a.choices ++ ")"
  else if a.isPath then "_files" else "_default"

/-- The specification lines of an option that takes a value. -/
def optionLines (a : Arg) : List String :=
  let star := if a.isMultiple then "*" else ""
  let help := escapeHelp a.help
  let value := ":" ++ a.valueName ++ ":" ++ valueAction a
  (a.short.map fun s => "'" ++ star ++ "-" ++ s.toString ++ "+[" ++ help ++ "]" ++ value ++ "' \\").toList ++
  (a.long.map fun l => "'" ++ star ++ "--" ++ l ++ "=[" ++ help ++ "]" ++ value ++ "' \\").toList

/-- The specification lines of a switch. -/
def switchLines (a : Arg) : List String :=
  let help := escapeHelp a.help
  (a.short.map fun s => "'-" ++ s.toString ++ "[" ++ help ++ "]' \\").toList ++
  (a.long.map fun l => "'--" ++ l ++ "[" ++ help ++ "]' \\").toList

/-- The specification line of a positional. -/
def positionalLine (a : Arg) : String :=
  let lead := if a.isMultiple then "*:" else if a.required then "" else ":"
  let help := if a.help.isEmpty then "" else " -- " ++ a.help
  "'" ++ lead ++ ":" ++ a.id ++ escapePositional help ++ ":" ++ valueAction a ++ "' \\"

/-- The name of the function describing a command's subcommands. -/
def commandsFunction (path : List String) : String := "_" ++ "__subcmd__".intercalate path ++ "_commands"

/-- The `_arguments` call of a command. -/
def argumentsCall (path : List String) (c : Command) : String :=
  let subs := if c.subcommands.isEmpty then []
    else ["\":: :" ++ commandsFunction path ++ "\" \\", "\"*::: :->" ++ c.name ++ "\" \\"]
  "\n".intercalate (["_arguments \"$\x7b_arguments_options[@]\x7d\" : \\"] ++
    c.valueOptions.flatMap optionLines ++ c.switches.flatMap switchLines ++
    c.positionals.map positionalLine ++ subs ++ ["&& ret=0"])

mutual

/-- The `case $state` block of a command's subcommands, empty when it has none. -/
def states (path : List String) : Command → String
  | c@{ subcommands, .. } =>
    if subcommands.isEmpty then ""
    else
      let pos := toString (c.positionals.length + 1)
      "\n    case $state in\n    (" ++ c.name ++ ")\n" ++
      "        words=($line[" ++ pos ++ "] \"$\x7bwords[@]\x7d\")\n" ++
      "        (( CURRENT += 1 ))\n" ++
      "        curcontext=\"$\x7bcurcontext%:*:*\x7d:" ++ "-".intercalate path ++ "-command-$line[" ++ pos ++ "]:\"\n" ++
      "        case $line[" ++ pos ++ "] in\n            " ++ "\n".intercalate (branches path subcommands) ++
      "\n        esac\n    ;;\nesac"
termination_by structural c => c

/-- The branches of a `case` over subcommands. -/
def branches (path : List String) : List Command → List String
  | [] => []
  | s :: rest =>
    let here := path ++ [s.name]
    let inner := states here s
    ("(" ++ s.name ++ ")\n" ++ argumentsCall here s ++ (if inner.isEmpty then "" else "\n" ++ inner) ++ "\n;;") ::
      branches path rest
termination_by structural cs => cs

end

/-- The function describing a command's subcommands. -/
def commandsDefinition (path : List String) (c : Command) : String :=
  let entries := c.subcommands.map fun s => "'" ++ s.name ++ ":" ++ escapeHelp s.about ++ "' \\"
  let list := if entries.isEmpty then "" else "\n" ++ "\n".intercalate entries ++ "\n    "
  let fn := commandsFunction path
  "(( $+functions[" ++ fn ++ "] )) ||\n" ++ fn ++ "() \x7b\n" ++
  "    local commands; commands=(" ++ list ++ ")\n" ++
  "    _describe -t commands '" ++ " ".intercalate path ++ " commands' commands \"$@\"\n\x7d"

/-- The zsh completion script of a built command. -/
def script (root : Command) : String :=
  let bin := root.name
  let all := Command.walk [] root
  let rest := (all.drop 1).mergeSort fun a b => decide (" ".intercalate a.1 ≤ " ".intercalate b.1)
  let definitions := (all.take 1 ++ rest).map fun (p, c) => commandsDefinition p c
  "#compdef " ++ bin ++ "\n\n" ++
  "autoload -U is-at-least\n\n" ++
  "_" ++ bin ++ "() \x7b\n" ++
  "    typeset -A opt_args\n" ++
  "    typeset -a _arguments_options\n" ++
  "    local ret=1\n\n" ++
  "    if is-at-least 5.2; then\n" ++
  "        _arguments_options=(-s -S -C)\n" ++
  "    else\n" ++
  "        _arguments_options=(-s -C)\n" ++
  "    fi\n\n" ++
  "    local context curcontext=\"$curcontext\" state line\n" ++
  "    " ++ argumentsCall [bin] root ++ states [bin] root ++ "\n\x7d\n\n" ++
  "\n".intercalate definitions ++ "\n\n" ++
  "if [ \"$funcstack[1]\" = \"_" ++ bin ++ "\" ]; then\n" ++
  "    _" ++ bin ++ " \"$@\"\n" ++
  "else\n" ++
  "    compdef _" ++ bin ++ " " ++ bin ++ "\n" ++
  "fi\n"

end Zsh

end Provisioning.Cli
