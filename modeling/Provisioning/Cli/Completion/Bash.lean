import Provisioning.Cli.Spec
/-!
Completion scripts for bash.

The script defines one function, `_<program>`, registered with `complete`.
It walks the words before the cursor to find the command they lead to:
each command has a name made of its path, the words joined by
`__subcmd__` and each `-` in them replaced by `__subcmd__` as well
(`civikitchen__subcmd__link__subcmd__extension`). For that command it
offers its short names, long names, the possible values of its positionals
and its subcommands' names; after an option that takes a value it offers
file names, or the option's possible values.

Transitions between commands and the per-command blocks are listed in the
order of these names.
-/

namespace Provisioning.Cli

namespace Command

/-- The options of a command that take values, in order. -/
def valueOptions (c : Command) : List Arg := c.options.filter (·.takesValue)

/-- The switches of a command, in order. -/
def switches (c : Command) : List Arg := c.options.filter (!·.takesValue)

end Command

namespace Bash

/-- The name of a command in the script, from its path. -/
def functionName (path : List String) : String :=
  "__subcmd__".intercalate (path.map fun w => w.replace "-" "__subcmd__")

/-- The words offered for a command. -/
def offered (c : Command) : String :=
  let shorts := c.options.filterMap fun a => a.short.map fun s => "-" ++ s.toString
  let longs := c.options.filterMap fun a => a.long.map ("--" ++ ·)
  let values := c.positionals.flatMap (·.choices)
  " ".intercalate (shorts ++ longs ++ values ++ c.subcommands.map (·.name))

/-- The value completion after an option. -/
def valueReply (a : Arg) : String :=
  if a.choices.isEmpty then "COMPREPLY=($(compgen -f \"$\x7bcur\x7d\"))"
  else "COMPREPLY=($(compgen -W \"" ++ " ".intercalate a.choices ++ "\" -- \"$\x7bcur\x7d\"))"

/-- The cases for the word before the cursor. -/
def previousCases (c : Command) : String :=
  let entry (name : String) (a : Arg) : String :=
    "\n                " ++ name ++ ")\n                    " ++ valueReply a ++
      "\n                    return 0\n                    ;;"
  String.join (c.valueOptions.map fun a =>
    (a.long.map fun l => entry ("--" ++ l) a).getD "" ++ (a.short.map fun s => entry ("-" ++ s.toString) a).getD "")

/-- The block of one command. -/
def block (path : List String) (c : Command) : String :=
  functionName path ++ ")\n            opts=\"" ++ offered c ++ "\"\n" ++
  "            if [[ $\x7bcur\x7d == -* || $\x7bCOMP_CWORD\x7d -eq " ++ toString path.length ++ " ]] ; then\n" ++
  "                COMPREPLY=( $(compgen -W \"$\x7bopts\x7d\" -- \"$\x7bcur\x7d\") )\n" ++
  "                return 0\n" ++
  "            fi\n" ++
  "            case \"$\x7bprev\x7d\" in" ++ previousCases c ++ "\n" ++
  "                *)\n" ++
  "                    COMPREPLY=()\n" ++
  "                    ;;\n" ++
  "            esac\n" ++
  "            COMPREPLY=( $(compgen -W \"$\x7bopts\x7d\" -- \"$\x7bcur\x7d\") )\n" ++
  "            return 0\n" ++
  "            ;;"

/-- Order strings. -/
def sortTexts (xs : List String) : List String := xs.mergeSort fun a b => decide (a ≤ b)

/-- The bash completion script of a built command. -/
def script (root : Command) : String :=
  let bin := root.name
  let all := Command.walk [] root
  let subs := all.drop 1
  let transitions := (subs.map fun (path, _) =>
    let parent := functionName path.dropLast
    let name := path.getLastD ""
    (parent ++ "," ++ name, functionName path)).mergeSort fun a b => decide (a.1 ≤ b.1)
  let transitionText := String.join (transitions.map fun (key, fn) =>
    "\n            " ++ key ++ ")\n                cmd=\"" ++ fn ++ "\"\n                ;;")
  let blocks := (subs.mergeSort fun a b => decide (functionName a.1 ≤ functionName b.1)).map fun (p, c) =>
    "\n        " ++ block p c
  "_" ++ bin ++ "() \x7b\n" ++
  "    local i cur prev opts cmd\n" ++
  "    COMPREPLY=()\n" ++
  "    if [[ \"$\x7bBASH_VERSINFO[0]\x7d\" -ge 4 ]]; then\n" ++
  "        cur=\"$2\"\n" ++
  "    else\n" ++
  "        cur=\"$\x7bCOMP_WORDS[COMP_CWORD]\x7d\"\n" ++
  "    fi\n" ++
  "    prev=\"$3\"\n" ++
  "    cmd=\"\"\n" ++
  "    opts=\"\"\n" ++
  "\n" ++
  "    for i in \"$\x7bCOMP_WORDS[@]:0:COMP_CWORD\x7d\"\n" ++
  "    do\n" ++
  "        case \"$\x7bcmd\x7d,$\x7bi\x7d\" in\n" ++
  "            \",$1\")\n" ++
  "                cmd=\"" ++ functionName [bin] ++ "\"\n" ++
  "                ;;" ++ transitionText ++ "\n" ++
  "            *)\n" ++
  "                ;;\n" ++
  "        esac\n" ++
  "    done\n" ++
  "\n" ++
  "    case \"$\x7bcmd\x7d\" in\n" ++
  "        " ++ block [bin] root ++ String.join blocks ++ "\n" ++
  "    esac\n" ++
  "\x7d\n" ++
  "\n" ++
  "if [[ \"$\x7bBASH_VERSINFO[0]\x7d\" -eq 4 && \"$\x7bBASH_VERSINFO[1]\x7d\" -ge 4 || \"$\x7bBASH_VERSINFO[0]\x7d\" -gt 4 ]]; then\n" ++
  "    complete -F _" ++ bin ++ " -o nosort -o bashdefault -o default " ++ bin ++ "\n" ++
  "else\n" ++
  "    complete -F _" ++ bin ++ " -o bashdefault -o default " ++ bin ++ "\n" ++
  "fi\n"

end Bash

end Provisioning.Cli
