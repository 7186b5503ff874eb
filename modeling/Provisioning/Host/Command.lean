import Provisioning.Machine
import Provisioning.Host.Listing
/-!
A host application driven through its command-line program.

Each operation runs the program with the arguments of an `ext:` command:
`ext:list --local --out=json` (or without `--local` for the remote catalog
too), `ext:list --refresh` (after `flush` when the host is so configured),
`ext:enable`, `ext:disable` and `ext:uninstall` with the extension's name.
Without a prefix the program runs in the site directory, which must exist;
behind a prefix (such as `docker exec site`) the working directory belongs
to the other side. A program that cannot be started, or that fails, makes
the operation fail with what it said.
-/

namespace Provisioning

namespace CommandHost

/-- Run the host program with arguments, for an operation on a target. -/
def call (h : CommandHost) (operation target : String) (args : List String) : Act Captured := do
  let cmd := Command.withPrefix h.execPrefix h.program args
  let cmd ← match h.execPrefix, h.siteDir with
    | [], some dir =>
      if !(← get).isDir dir then
        throw (.hostOperation operation target ("site directory " ++ dir ++ " does not exist"))
      pure { cmd with cwd := some dir }
    | _, _ => pure cmd
  match ← Act.runCommand cmd with
  | .error e => throw (.hostOperation operation target (startFailure cmd.program e))
  | .ok out =>
    if out.success then pure out else throw (.hostOperation operation target out.failureText)

/-- The arguments of a listing. -/
def listArgs : ListScope → List String
  | .local => ["ext:list", "--local", "--out=json"]
  | .all => ["ext:list", "--out=json"]

/-- The host's listing. -/
def list (h : CommandHost) (scope : ListScope) : Act (List HostEntry) := do
  let out ← h.call "list" "*" (listArgs scope)
  match Listing.parse out.stdout with
  | .ok rows => pure rows
  | .error message => throw (.hostOperation "list" "*" message)

/-- Make the host register the code in the extensions root. -/
def refresh (h : CommandHost) : Act Unit := do
  if h.flushOnRefresh then discard (h.call "flush" "*" ["flush"])
  discard (h.call "refresh" "*" ["ext:list", "--refresh"])

/-- Enable an extension. -/
def enable (h : CommandHost) (name : String) : Act Unit := discard (h.call "enable" name ["ext:enable", name])

/-- Disable an extension. -/
def disable (h : CommandHost) (name : String) : Act Unit := discard (h.call "disable" name ["ext:disable", name])

/-- Uninstall an extension. -/
def uninstall (h : CommandHost) (name : String) : Act Unit :=
  discard (h.call "uninstall" name ["ext:uninstall", name])

end CommandHost

end Provisioning
