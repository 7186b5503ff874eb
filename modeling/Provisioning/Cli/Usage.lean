import Provisioning.Cli.Spec
import Provisioning.Text.Style
/-!
Usage lines.

An argument is shown by its long name, or else its short one, followed by
its value: `--config <CONFIG>`, `-s <SOURCES>`; the blank between name and
value is written in the style of the name. A positional is its value
name in angle brackets when required and in square brackets otherwise,
followed by `...` when it collects values: `<NAME>`, `[NAMES]...`.

A usage line names the command (`civikitchen provision`), then, when no
argument has been used yet, `[OPTIONS]` if the command has options other
than the built-in switches that are not required. Then come the required
arguments and those already used, options before positionals, and every
other positional in its optional form. A command with subcommands ends
with `<COMMAND>` when one must be given, and `[COMMAND]` otherwise.

Help and error messages share one set of styles: headings bold and
underlined, literal names bold, errors bold red, accepted values green and
refused ones yellow.
-/

namespace Provisioning.Cli

open Provisioning.Text

/-! ### The styles of help and error messages -/

namespace Tone

/-- Section headings such as `Usage:`. -/
def heading : Style := { bold := true, underline := true }

/-- Names to type as they are. -/
def literal : Style := Style.strong

/-- The `error:` label. -/
def failure : Style := Style.strongColored .red

/-- Values that are accepted, and tips. -/
def valid : Style := Style.colored .green

/-- Values that were refused. -/
def invalid : Style := Style.colored .yellow

end Tone

namespace Arg

/-- The value part of an argument: `<NAME>`, `[NAME]`, with `...` for a positional
that collects values. -/
def valueText (a : Arg) (required : Bool) : String :=
  if a.positional then
    (if required then "<" ++ a.valueName ++ ">" else "[" ++ a.valueName ++ "]") ++
      (if a.isMultiple then "..." else "")
  else "<" ++ a.valueName ++ ">"

/-- An argument as shown in usage lines and messages; `required` overrides whether a
positional is shown as required. -/
def display (a : Arg) (required : Option Bool := none) : Styled :=
  let name : Styled := match a.long, a.short with
    | some l, _ => Styled.styled Tone.literal ("--" ++ l)
    | none, some s => Styled.styled Tone.literal ("-" ++ s.toString)
    | none, none => []
  let req := required.getD a.required
  if a.positional then Styled.text (a.valueText req)
  else if a.takesValue then name ++ Styled.styled Tone.literal " " ++ Styled.text (a.valueText req)
  else name

/-- An argument as plain text, as it is named in messages. -/
def label (a : Arg) : String := (a.display).toText

end Arg

namespace Command

/-- The identifiers of the required arguments, in order. -/
def requiredIds (c : Command) : List String := (c.args.filter (·.required)).map (·.id)

/-- Whether the usage line shows `[OPTIONS]`: some option or switch, other than help and
version, that is not required. -/
def needsOptionsTag (c : Command) : Bool :=
  c.options.any fun a => a.action != .help && a.action != .version && !a.required

/-- The arguments of a usage line: the required ones and those used, options first, then
every positional in order, in its optional form unless required or used. -/
def usageArgs (c : Command) (used : List String) : List Styled :=
  let ids := c.requiredIds ++ used
  let opts := ids.foldl (fun (acc : List Styled) id =>
    match c.arg? id with
    | some a => if a.positional then acc else
      let d := a.display (some true)
      if acc.any (·.toText == d.toText) then acc else acc ++ [d]
    | none => acc) []
  let poss := c.positionals.map fun p => p.display (some (ids.contains p.id))
  opts ++ poss

/-- The usage of a command reached by `bin`, given the arguments used so far. -/
def usage (c : Command) (bin : String) (used : List String) : Styled :=
  let head := Styled.styled Tone.literal bin
  let tag := if used.isEmpty && c.needsOptionsTag then Styled.text " [OPTIONS]" else []
  let args := (c.usageArgs used).foldl (fun acc a => acc ++ Styled.text " " ++ a) []
  let sub :=
    if c.subcommands.isEmpty then []
    else if c.subcommandRequired || c.helpWhenEmpty then Styled.text " <COMMAND>"
    else if used.isEmpty then Styled.text " [COMMAND]" else []
  head ++ tag ++ args ++ sub

/-- A usage line with its heading. -/
def usageLine (c : Command) (bin : String) (used : List String) : Styled :=
  Styled.styled Tone.heading "Usage:" ++ Styled.text " " ++ c.usage bin used

end Command

end Provisioning.Cli
