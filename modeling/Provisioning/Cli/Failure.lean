import Provisioning.Cli.Help
/-!
Why a command line is refused, and how it is said.

Every message starts with `error: ` and ends by pointing at `--help`. Tips
follow the message after a blank line, one per line: similar subcommands,
arguments or values first (`tip: a similar value exists: 'zsh'`), then how
to pass a text that looks like a switch as a value (`tip: to pass '-x' as a
value, use '-- -x'`). Most messages then show the usage line of the
command; a refused value shows the possible values instead.
-/

namespace Provisioning.Cli

open Provisioning.Text

/-- Why a command line is refused. -/
inductive Failure where
  /-- An argument that the command does not have; with a similar long name, or a
  similar one of a subcommand given later, and whether to tip `--`. -/
  | unknownArgument (arg : String) (similar : Option String) (similarIn : Option (String × String))
      (dashTip : Bool) (usage : Styled)
  /-- A word that is no subcommand but looks like some. -/
  | similarSubcommand (word : String) (similar : List String) (usage : Styled)
  /-- A word that is no subcommand. -/
  | unknownSubcommand (word : String) (usage : Styled)
  /-- Required arguments that were not given. -/
  | missingRequired (args : List String) (usage : Styled)
  /-- No subcommand was given where one is required. -/
  | missingSubcommand (command : String) (names : List String) (usage : Styled)
  /-- A value that is empty where one is needed, or not one of the possible values. -/
  | invalidValue (arg : String) (value : String) (choices : List String) (similar : Option String)
  /-- A value its reader refuses, with the reader's reason. -/
  | refusedValue (arg : String) (value : String) (reason : String)
  /-- Arguments given together that may not be. -/
  | conflict (arg : String) (others : List String) (usage : Styled)
  /-- An argument given twice. -/
  | repeated (arg : String) (usage : Styled)
  /-- A value attached to a switch. -/
  | unexpectedValue (value : String) (arg : String) (usage : Styled)

namespace Failure

/-- A tip line. -/
def tip (body : Styled) : Styled :=
  Styled.text "  " ++ Styled.styled Tone.valid "tip:" ++ Styled.text " " ++ body

/-- A quoted name in a style. -/
def quoted (st : Style) (s : String) : Styled := Styled.text "'" ++ Styled.styled st s ++ Styled.text "'"

/-- The tip naming similar things of a kind. -/
def similarTip (kind : String) (names : List String) : Styled :=
  let list := Styled.joinWith (Styled.text ", ") (names.map (quoted Tone.valid))
  tip ((if names.length == 1 then Styled.text ("a similar " ++ kind ++ " exists: ")
    else Styled.text ("some similar " ++ kind ++ "s exist: ")) ++ list)

/-- The tip on passing a text that looks like a switch as a value. -/
def dashTip (arg : String) : Styled :=
  tip (Styled.text "to pass " ++ quoted Tone.invalid arg ++ Styled.text " as a value, use " ++
    quoted Tone.valid ("-- " ++ arg))

/-- Tips: the similar ones first, each after a line break, a blank line before the first. -/
def tips (similar : List Styled) (others : List Styled) : Styled :=
  let all := similar ++ others
  if all.isEmpty then [] else Styled.text "\n" ++ all.foldl (fun acc t => acc ++ Styled.text "\n" ++ t) []

/-- The list of possible values after a message. -/
def valueList (label : String) (values : List String) : Styled :=
  if values.isEmpty then []
  else Styled.text ("\n  [" ++ label ++ ": ") ++
    Styled.joinWith (Styled.text ", ") (values.map (Styled.styled Tone.valid)) ++ Styled.text "]"

/-- The usage part of a message. -/
def usagePart (usage : Styled) : Styled :=
  Styled.text "\n\n" ++ Styled.styled Tone.heading "Usage:" ++ Styled.text " " ++ usage

/-- The message of a failure, without the `error:` label and the pointer to help. -/
def body : Failure → Styled
  | .unknownArgument arg similar similarIn dash usage =>
    Styled.text "unexpected argument " ++ quoted Tone.invalid arg ++ Styled.text " found" ++
      tips ((similar.map fun s => similarTip "argument" [s]).toList)
        ((if dash then [dashTip arg] else []) ++
          (similarIn.map fun (flag, sub) =>
            tip (Styled.text "'" ++ Styled.styled Tone.valid (sub ++ " " ++ flag) ++ Styled.text "' exists")).toList) ++
      usagePart usage
  | .similarSubcommand word similar usage =>
    Styled.text "unrecognized subcommand " ++ quoted Tone.invalid word ++
      tips [similarTip "subcommand" similar] [] ++ usagePart usage
  | .unknownSubcommand word usage =>
    Styled.text "unrecognized subcommand " ++ quoted Tone.invalid word ++ usagePart usage
  | .missingRequired args usage =>
    Styled.text "the following required arguments were not provided:" ++
      args.foldl (fun acc a => acc ++ Styled.text "\n  " ++ Styled.styled Tone.valid a) [] ++
      usagePart usage
  | .missingSubcommand command names usage =>
    quoted Tone.invalid command ++ Styled.text " requires a subcommand but one was not provided" ++
      valueList "subcommands" names ++ usagePart usage
  | .invalidValue arg value choices similar =>
    (if value.isEmpty then
      Styled.text "a value is required for " ++ quoted Tone.literal arg ++ Styled.text " but none was supplied"
    else
      Styled.text "invalid value " ++ quoted Tone.invalid value ++ Styled.text " for " ++ quoted Tone.literal arg) ++
      valueList "possible values" choices ++
      tips ((similar.map fun s => similarTip "value" [s]).toList) []
  | .refusedValue arg value reason =>
    Styled.text "invalid value " ++ quoted Tone.invalid value ++ Styled.text " for " ++ quoted Tone.literal arg ++
      Styled.text (": " ++ reason)
  | .conflict arg others usage =>
    Styled.text "the argument " ++ quoted Tone.invalid arg ++ Styled.text " cannot be used with" ++
      (match others with
        | [o] => Styled.text " " ++ quoted Tone.invalid o
        | _ => Styled.text ":" ++ others.foldl (fun acc o => acc ++ Styled.text "\n  " ++ Styled.styled Tone.invalid o) []) ++
      usagePart usage
  | .repeated arg usage =>
    Styled.text "the argument " ++ quoted Tone.invalid arg ++ Styled.text " cannot be used multiple times" ++
      usagePart usage
  | .unexpectedValue value arg usage =>
    Styled.text "unexpected value " ++ quoted Tone.invalid value ++ Styled.text " for " ++ quoted Tone.literal arg ++
      Styled.text " found; no more were expected" ++ usagePart usage

/-- The whole message of a failure. -/
def message (f : Failure) : Styled :=
  Styled.styled Tone.failure "error:" ++ Styled.text " " ++ f.body ++
    Styled.text "\n\nFor more information, try " ++ quoted Tone.literal "--help" ++ Styled.text ".\n"

end Failure

end Provisioning.Cli
