import Provisioning.Cli.Completion.Bash
/-!
Completion scripts for elvish.

The script registers an argument completer that joins the words before the
first switch with `;` into the path of the command they lead to, and looks
the path up in a map holding, for every command, the candidates it offers:
short and long names of its options, then of its switches, then its
subcommands, each with its description. Commands appear in the map depth
first. Descriptions are quoted with doubled quotes.
-/

namespace Provisioning.Cli

namespace Elvish

/-- Quote a text for single quotes. -/
def escape (s : String) : String := s.replace "'" "''"

/-- The candidate lines of an argument. -/
def argumentCandidates (a : Arg) : List String :=
  (a.short.map fun s => "-" ++ s.toString ++ " '" ++ escape a.help ++ "'").toList ++
  (a.long.map fun l => "--" ++ l ++ " '" ++ escape a.help ++ "'").toList

/-- The map entry of one command. -/
def entry (path : List String) (c : Command) : String :=
  let candidates := c.valueOptions.flatMap argumentCandidates ++ c.switches.flatMap argumentCandidates ++
    c.subcommands.map fun s => s.name ++ " '" ++ escape s.about ++ "'"
  "\n        &'" ++ ";".intercalate path ++ "'= \x7b" ++
    String.join (candidates.map ("\n            cand " ++ ·)) ++ "\n        \x7d"

/-- The elvish completion script of a built command. -/
def script (root : Command) : String :=
  let bin := root.name
  "\nuse builtin;\nuse str;\n\n" ++
  "set edit:completion:arg-completer[" ++ bin ++ "] = \x7b|@words|\n" ++
  "    fn spaces \x7b|n|\n" ++
  "        builtin:repeat $n ' ' | str:join ''\n" ++
  "    \x7d\n" ++
  "    fn cand \x7b|text desc|\n" ++
  "        edit:complex-candidate $text &display=$text' '(spaces (- 14 (wcswidth $text)))$desc\n" ++
  "    \x7d\n" ++
  "    var command = '" ++ bin ++ "'\n" ++
  "    for word $words[1..-1] \x7b\n" ++
  "        if (str:has-prefix $word '-') \x7b\n" ++
  "            break\n" ++
  "        \x7d\n" ++
  "        set command = $command';'$word\n" ++
  "    \x7d\n" ++
  "    var completions = [" ++ String.join ((Command.walk [] root).map fun (p, c) => entry p c) ++ "\n" ++
  "    ]\n" ++
  "    $completions[$command]\n" ++
  "\x7d\n"

end Elvish

end Provisioning.Cli
