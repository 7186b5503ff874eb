import Provisioning.Cli.Completion.Zsh
import Provisioning.Cli.Completion.Fish
import Provisioning.Cli.Completion.Elvish
import Provisioning.Cli.Completion.PowerShell
/-!
The shells completion scripts are written for, and the script of each.

Scripts describe the command tree with `help` expanded into one
subcommand per command, so that `help <TAB>` offers every command name.
-/

namespace Provisioning.Cli

/-- A shell with a completion script. -/
inductive Shell where
  | bash
  | elvish
  | fish
  | powershell
  | zsh
  deriving DecidableEq, Repr, Inhabited

namespace Shell

/-- Every shell, in the order help lists them. -/
def all : List Shell := [.bash, .elvish, .fish, .powershell, .zsh]

/-- The name of a shell on the command line. -/
def name : Shell → String
  | .bash => "bash"
  | .elvish => "elvish"
  | .fish => "fish"
  | .powershell => "powershell"
  | .zsh => "zsh"

/-- The shell of a name. -/
def ofName? (s : String) : Option Shell := all.find? (·.name == s)

/-- The completion script of a declared command for a shell. -/
def script (sh : Shell) (decl : Command) : String :=
  let root := Command.build true [] decl
  match sh with
  | .bash => Bash.script root
  | .elvish => Elvish.script root
  | .fish => Fish.script root
  | .powershell => PowerShell.script root
  | .zsh => Zsh.script root

theorem ofName_name (sh : Shell) : ofName? sh.name = some sh := by
  cases sh <;> rfl

end Shell

end Provisioning.Cli
