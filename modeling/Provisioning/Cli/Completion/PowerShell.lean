import Provisioning.Cli.Completion.Bash
/-!
Completion scripts for PowerShell.

The script registers a native argument completer that joins the bare words
before the one being completed with `;` into the path of a command, and
switches on that path to a list of completion results: the options and
switches by short and long name, as parameter names, then the subcommands,
as parameter values. Commands appear depth first. A short name in upper
case is listed with a space after it, so that it sorts apart from its lower
case twin. Descriptions are quoted with doubled quotes.
-/

namespace Provisioning.Cli

namespace PowerShell

/-- Quote a text for single quotes. -/
def escape (s : String) : String := s.replace "'" "''"

/-- One completion result. -/
def result (text listed kind help : String) : String :=
  "\n            [CompletionResult]::new('" ++ text ++ "', '" ++ listed ++ "', [CompletionResultType]::" ++
    kind ++ ", '" ++ escape help ++ "')"

/-- The completion results of an argument. -/
def argumentResults (a : Arg) : List String :=
  (a.short.map fun s =>
    let name := "-" ++ s.toString
    result name (name ++ if s.isUpper then " " else "") "ParameterName" a.help).toList ++
  (a.long.map fun l => result ("--" ++ l) ("--" ++ l) "ParameterName" a.help).toList

/-- The switch branch of one command. -/
def branch (path : List String) (c : Command) : String :=
  let results := c.valueOptions.flatMap argumentResults ++ c.switches.flatMap argumentResults ++
    c.subcommands.map fun s => result s.name s.name "ParameterValue" s.about
  "\n        '" ++ ";".intercalate path ++ "' \x7b" ++ String.join results ++
    "\n            break\n        \x7d"

/-- The PowerShell completion script of a built command. -/
def script (root : Command) : String :=
  let bin := root.name
  "\nusing namespace System.Management.Automation\n" ++
  "using namespace System.Management.Automation.Language\n\n" ++
  "Register-ArgumentCompleter -Native -CommandName '" ++ bin ++ "' -ScriptBlock \x7b\n" ++
  "    param($wordToComplete, $commandAst, $cursorPosition)\n\n" ++
  "    $commandElements = $commandAst.CommandElements\n" ++
  "    $command = @(\n" ++
  "        '" ++ bin ++ "'\n" ++
  "        for ($i = 1; $i -lt $commandElements.Count; $i++) \x7b\n" ++
  "            $element = $commandElements[$i]\n" ++
  "            if ($element -isnot [StringConstantExpressionAst] -or\n" ++
  "                $element.StringConstantType -ne [StringConstantType]::BareWord -or\n" ++
  "                $element.Value.StartsWith('-') -or\n" ++
  "                $element.Value -eq $wordToComplete) \x7b\n" ++
  "                break\n" ++
  "        \x7d\n" ++
  "        $element.Value\n" ++
  "    \x7d) -join ';'\n\n" ++
  "    $completions = @(switch ($command) \x7b" ++
  String.join ((Command.walk [] root).map fun (p, c) => branch p c) ++ "\n" ++
  "    \x7d)\n\n" ++
  "    $completions.Where\x7b $_.CompletionText -like \"$wordToComplete*\" \x7d |\n" ++
  "        Sort-Object -Property ListItemText\n" ++
  "\x7d\n"

end PowerShell

end Provisioning.Cli
