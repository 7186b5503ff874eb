import Provisioning.Host.Status
import Provisioning.Error
import Provisioning.Text.Sort
/-!
A host application kept in memory.

It follows the registry rules of the real host. Extension code placed in the
extensions root is invisible to the host until a refresh registers it;
enabling needs a registered extension whose code is present; an enabled
extension must be disabled before it is uninstalled. Failures can be
injected for one operation on one extension, and for every listing. Each
operation but a listing is recorded as `operation name`, also when it then
fails.
-/

namespace Provisioning

/-- The registry of a host: names in code-point order, each with its status. -/
abbrev Registry := List (String × HostStatus)

namespace Registry

/-- Set a name's status, keeping the names in code-point order. -/
def set : Registry → String → HostStatus → Registry
  | [], n, s => [(n, s)]
  | (k, v) :: rest, n, s =>
    if n = k then (n, s) :: rest
    else if n < k then (n, s) :: (k, v) :: rest
    else (k, v) :: set rest n s

/-- The status of a name, if the registry has it. -/
def get? (r : Registry) (n : String) : Option HostStatus := r.lookup n

/-- The registry without a name. -/
def remove (r : Registry) (n : String) : Registry := r.filter (·.1 != n)

theorem get_set_self (r : Registry) (n : String) (s : HostStatus) : (r.set n s).get? n = some s := by
  induction r with
  | nil => simp [set, get?]
  | cons kv rest ih =>
    obtain ⟨k, v⟩ := kv
    unfold set
    by_cases h : n = k
    · simp [h, get?]
    · by_cases h2 : n < k
      · simp [h, h2, get?]
      · have hk : (n == k) = false := by simpa using h
        simp only [h, h2, if_false]
        simpa [get?, List.lookup_cons, hk] using ih

end Registry

/-- The state of a host kept in memory. -/
structure MemoryHost where
  /-- Extensions whose code is in the extensions root, in code-point order. -/
  available : List String := []
  /-- The host's registry, filled by refreshes. -/
  registry : Registry := []
  /-- Injected failures: the message for an operation on a name. -/
  failures : List ((String × String) × String) := []
  /-- A message every listing fails with. -/
  listFailure : Option String := none
  /-- Operations performed so far, as `operation name`. -/
  calls : List String := []
  deriving Inhabited

namespace MemoryHost

/-- A host whose extensions root holds the given names. -/
def withAvailable (names : List String) : MemoryHost := { available := Text.sortDedup names }

/-- Make a name's code visible to the next refresh. -/
def addAvailable (h : MemoryHost) (name : String) : MemoryHost :=
  { h with available := Text.sortDedup (name :: h.available) }

/-- Take a name's code out of the extensions root. -/
def removeAvailable (h : MemoryHost) (name : String) : MemoryHost :=
  { h with available := h.available.filter (· != name) }

/-- Make an operation on a name fail with a message; `*` names the refresh. -/
def failOn (h : MemoryHost) (operation name message : String) : MemoryHost :=
  { h with failures := ((operation, name), message) :: h.failures.filter (·.1 != (operation, name)) }

/-- Make every listing fail with a message. -/
def failList (h : MemoryHost) (message : String) : MemoryHost := { h with listFailure := some message }

/-- The registry status of a name, injected failures aside. -/
def status (h : MemoryHost) (name : String) : Option HostStatus := h.registry.get? name

/-- Force a registry status, as if changed outside this tool. -/
def setStatus (h : MemoryHost) (name : String) (s : HostStatus) : MemoryHost :=
  { h with registry := h.registry.set name s }

/-- Record an operation and fail if a failure was injected for it. -/
def begin (operation name : String) : EStateM Error MemoryHost Unit := do
  let h ← get
  set { h with calls := h.calls ++ [operation ++ " " ++ name] }
  match h.failures.lookup (operation, name) with
  | some message => throw (.hostOperation operation name message)
  | none => pure ()

/-- The registry status of a name that an operation needs registered. -/
def registered (operation name : String) : EStateM Error MemoryHost HostStatus := do
  match (← get).status name with
  | some s => pure s
  | none => throw (.hostOperation operation name ("extension '" ++ name ++ "' is not known to the host"))

/-- The registry as a listing; the scope makes no difference here. -/
def list (h : MemoryHost) : Except Error (List HostEntry) :=
  match h.listFailure with
  | some message => .error (.hostOperation "list" "*" message)
  | none => .ok (h.registry.map fun (n, s) => ⟨n, s⟩)

/-- The registry after a refresh: present code becomes registered (a missing
extension comes back disabled), registered extensions whose code is gone
become missing, and uninstalled ones without code are forgotten. -/
def refreshed (available : List String) (r : Registry) : Registry :=
  let r := available.foldl (fun r n =>
    match r.get? n with
    | some .missing => r.set n .disabled
    | some _ => r
    | none => r.set n .uninstalled) r
  let r := r.map fun (n, s) =>
    if available.contains n then (n, s)
    else match s with
      | .enabled | .disabled => (n, .missing)
      | _ => (n, s)
  r.filter fun (n, s) => available.contains n || s != .uninstalled

/-- Register the code present in the extensions root. -/
def refresh : EStateM Error MemoryHost Unit := do
  begin "refresh" "*"
  modify fun h => { h with registry := refreshed h.available h.registry }

/-- Enable a registered extension whose code is present. -/
def enable (name : String) : EStateM Error MemoryHost Unit := do
  begin "enable" name
  match ← registered "enable" name with
  | .missing => throw (.hostOperation "enable" name ("extension '" ++ name ++ "' has no code in the extensions root"))
  | _ => modify fun h => h.setStatus name .enabled

/-- Disable an enabled or disabled extension. -/
def disable (name : String) : EStateM Error MemoryHost Unit := do
  begin "disable" name
  match ← registered "disable" name with
  | .enabled | .disabled => modify fun h => h.setStatus name .disabled
  | other => throw (.hostOperation "disable" name ("extension '" ++ name ++ "' is " ++ other.name))

/-- Uninstall an extension that is not enabled; without code it leaves the registry. -/
def uninstall (name : String) : EStateM Error MemoryHost Unit := do
  begin "uninstall" name
  match ← registered "uninstall" name with
  | .enabled => throw (.hostOperation "uninstall" name ("extension '" ++ name ++ "' is enabled; disable it first"))
  | _ =>
    modify fun h =>
      if h.available.contains name then h.setStatus name .uninstalled
      else { h with registry := h.registry.remove name }

end MemoryHost

end Provisioning
