import Provisioning.Cli.Usage
/-!
Help texts.

A help text starts with the command's description (the longer one for a
long help, when it has one), then the usage line, then its sections:
`Commands:`, `Arguments:` (the positionals) and `Options:`, each present
only when not empty, separated by blank lines.

A short help puts each entry on one line, its description aligned in a
column two places after the widest entry of its section; an option without
a short name is shifted four places, where `-x, ` would stand. A long help
puts each description on the lines below its entry, indented by ten
places, with a blank line between entries. After a description come the
environment variable with its current value (`[env: NAME=value]`) and the
possible values (`[possible values: a, b]`): on the same line in a short
help, as a paragraph of their own in a long one.

Options are listed by their place, and those of the same place by short
name (lower case before upper case) or else long name; commands are listed
in their order.

The long help is used for `--help` and the `help` command when the command
has a longer description or an argument with a longer help; otherwise
both give the short help.
-/

namespace Provisioning.Cli

open Provisioning.Text

/-- Spaces. -/
def spaces (n : Nat) : String := String.ofList (List.replicate n ' ')

/-- Indent every line after the first. -/
def indentRest (indent : Nat) (s : String) : String := s.replace "\n" ("\n" ++ spaces indent)

namespace Arg

/-- The entry of an argument in help: `-c, --config <CONFIG>`, `    --json`, `<NAME>`. -/
def entry (a : Arg) : Styled :=
  if a.positional then a.display
  else
    let shortPart : Styled := match a.short, a.long with
      | some s, some _ => Styled.styled Tone.literal ("-" ++ s.toString) ++ Styled.text ", "
      | some s, none => Styled.styled Tone.literal ("-" ++ s.toString)
      | none, _ => Styled.text "    "
    let longPart : Styled := match a.long with
      | some l => Styled.styled Tone.literal ("--" ++ l)
      | none => []
    shortPart ++ longPart ++
      (if a.takesValue then Styled.styled Tone.literal " " ++ Styled.text (a.valueText a.required) else [])

/-- The notes after a description: environment variable and possible values. -/
def notes (a : Arg) (env : List (String × String)) : List String :=
  let envNote := match a.env with
    | some v => ["[env: " ++ v ++ "=" ++ ((env.lookup v).getD "") ++ "]"]
    | none => []
  let choiceNote := if a.choices.isEmpty then [] else ["[possible values: " ++ ", ".intercalate a.choices ++ "]"]
  envNote ++ choiceNote

/-- The order of an option in help: its place, then its short name (lower case first) or
its long name. -/
def sortKey (a : Arg) : Nat × String :=
  let key := match a.short, a.long with
    | some c, _ => c.toLower.toString ++ (if c.isLower then "0" else "1")
    | none, some l => l
    | none, none => "\x7b" ++ a.id
  (a.order, key)

end Arg

/-- Whether one sort key comes before or with another. -/
def keyLe (a b : Nat × String) : Bool := a.1 < b.1 || (a.1 == b.1 && decide (a.2 ≤ b.2))

/-- The lines of a section of arguments. -/
def argumentLines (args : List Arg) (long : Bool) (env : List (String × String)) : Styled :=
  let widest := args.foldl (fun w a => max w a.entry.width) 2
  let items := args.map fun a =>
    let text := if long then a.longHelp.getD a.help else a.help
    let notes := a.notes env
    if long then
      let body := if notes.isEmpty then text
        else if text.isEmpty then "\n".intercalate notes else text ++ "\n\n" ++ "\n".intercalate notes
      Styled.text "  " ++ a.entry ++ Styled.text ("\n" ++ spaces 10 ++ indentRest 10 body)
    else
      let body := " ".intercalate ((if text.isEmpty then [] else [text]) ++ notes)
      Styled.text "  " ++ a.entry ++ Styled.text (spaces (widest - a.entry.width + 2) ++ indentRest (widest + 4) body)
  Styled.joinWith (Styled.text (if long then "\n\n" else "\n")) items

/-- The lines of the commands section. -/
def commandLines (subs : List Command) : Styled :=
  let widest := subs.foldl (fun w s => max w s.name.length) 2
  Styled.joinWith (Styled.text "\n") (subs.map fun s =>
    Styled.text "  " ++ Styled.styled Tone.literal s.name ++
      Styled.text (spaces (widest - s.name.length + 2) ++ indentRest (widest + 4) s.about))

namespace Command

/-- The help text of a command reached by `bin`; `long` asks for the long help, given
only when one exists. -/
def helpText (c : Command) (bin : String) (long : Bool) (env : List (String × String)) : Styled :=
  let long := long && c.longHelpExists
  let about := if long then c.longAbout.getD c.about else c.about
  let heading (h : String) : Styled := Styled.styled Tone.heading (h ++ ":") ++ Styled.text "\n"
  let sorted := c.options.mergeSort fun a b => keyLe a.sortKey b.sortKey
  let sections : List Styled :=
    (if c.subcommands.isEmpty then [] else [heading "Commands" ++ commandLines c.subcommands]) ++
    (if c.positionals.isEmpty then [] else [heading "Arguments" ++ argumentLines c.positionals long env]) ++
    (if sorted.isEmpty then [] else [heading "Options" ++ argumentLines sorted long env])
  let text : Styled := (if about.isEmpty then [] else Styled.text (about ++ "\n")) ++ Styled.text "\n" ++
    c.usageLine bin [] ++ Styled.text "\n\n" ++ Styled.joinWith (Styled.text "\n\n") sections
  text.trimEnd ++ Styled.text "\n"

/-- The version text of a command. -/
def versionText (c : Command) (bin : String) : String := bin ++ " " ++ c.version.getD "" ++ "\n"

end Command

end Provisioning.Cli
