import Provisioning.Store.Error
/-!
What can go wrong while provisioning, and how each failure is reported.

Every failure is one constructor of `Error`, carrying the facts the message
needs; `Error.message` is the single place where the wording lives. Each
failure also belongs to a `ErrorKind`, and each kind has its own process
exit code, so a caller can tell a broken manifest (9) from a dependency
cycle (4) without reading the text. Code 2 is left to argument errors of
the command line, and 0 to success.
-/

namespace Provisioning

/-- Classes of failure, each with a stable exit code. -/
inductive ErrorKind where
  | manifestParse
  | dependencyCycle
  | missingDependency
  | link
  | hostOperation
  | seedExecution
  | config
  | other
  deriving DecidableEq, Repr

namespace ErrorKind

/-- Every kind, in the order they are listed to users. -/
def all : List ErrorKind :=
  [.manifestParse, .dependencyCycle, .missingDependency, .link, .hostOperation, .seedExecution,
    .config, .other]

/-- The exit code of a run that fails with this kind of error. -/
def exitCode : ErrorKind → Nat
  | .other => 1
  | .link => 3
  | .dependencyCycle => 4
  | .missingDependency => 5
  | .hostOperation => 6
  | .seedExecution => 7
  | .config => 8
  | .manifestParse => 9

/-- The kebab-case label of a kind. -/
def label : ErrorKind → String
  | .manifestParse => "manifest-parse"
  | .dependencyCycle => "dependency-cycle"
  | .missingDependency => "missing-dependency"
  | .link => "link"
  | .hostOperation => "host-operation"
  | .seedExecution => "seed-execution"
  | .config => "config"
  | .other => "other"

/-- No kind exits with 0 (success) or 2 (argument errors). -/
theorem exitCode_ne (k : ErrorKind) : k.exitCode ≠ 0 ∧ k.exitCode ≠ 2 := by
  cases k <;> decide

end ErrorKind

/-- A provisioning failure. -/
inductive Error where
  /-- A manifest is not valid JSON, or not of the required shape. -/
  | manifestParse (path : String) (reason : String)
  /-- There is no manifest file where one was expected. -/
  | manifestNotFound (path : String)
  /-- A name that cannot be used as an extension's directory name. -/
  | invalidName (name : String) (reason : String)
  /-- Dependencies that lead back to where they started; the cycle ends with its first name. -/
  | dependencyCycle (cycle : List String)
  /-- An extension depends on one that is not present. -/
  | missingDependency (requester : String) (missing : String)
  /-- A requested extension is not present. -/
  | unknownExtension (name : String)
  /-- An extension could not be made visible under the extensions root. -/
  | link (name : String) (reason : String)
  /-- A host command failed; `message` keeps the host's own words. -/
  | hostOperation (operation : String) (target : String) (message : String)
  /-- A host command did not finish in time. -/
  | hostTimeout (operation : String) (target : String) (seconds : Nat)
  /-- A seed script failed, and no marker was written. -/
  | seedExecution (name : String) (reason : String)
  /-- The configuration is invalid. -/
  | config (message : String)
  /-- The file store failed. -/
  | store (cause : StoreError)
  /-- A file operation failed. -/
  | io (cause : OsError)
  deriving Repr

namespace Error

/-- The error as shown to users. -/
def message : Error → String
  | .manifestParse path reason => "failed to parse extension manifest " ++ path ++ ": " ++ reason
  | .manifestNotFound path => "extension manifest not found: " ++ path
  | .invalidName name reason => "invalid extension name '" ++ name ++ "': " ++ reason
  | .dependencyCycle cycle => "dependency cycle detected: " ++ String.intercalate " -> " cycle
  | .missingDependency requester missing =>
    "extension '" ++ requester ++ "' depends on '" ++ missing ++ "', which is not present"
  | .unknownExtension name => "unknown extension: " ++ name
  | .link name reason => "failed to link extension '" ++ name ++ "': " ++ reason
  | .hostOperation operation target message =>
    "host " ++ operation ++ " failed for '" ++ target ++ "': " ++ message
  | .hostTimeout operation target seconds =>
    "host " ++ operation ++ " for '" ++ target ++ "' timed out after " ++ toString seconds ++ "s"
  | .seedExecution name reason => "seeding '" ++ name ++ "' failed: " ++ reason
  | .config message => "invalid configuration: " ++ message
  | .store cause => cause.message
  | .io cause => "I/O error: " ++ cause.message

/-- The class of a failure. -/
def kind : Error → ErrorKind
  | .manifestParse .. | .manifestNotFound .. => .manifestParse
  | .dependencyCycle .. => .dependencyCycle
  | .missingDependency .. | .unknownExtension .. => .missingDependency
  | .link .. | .invalidName .. => .link
  | .hostOperation .. | .hostTimeout .. => .hostOperation
  | .seedExecution .. => .seedExecution
  | .config .. => .config
  | .store .. | .io .. => .other

/-- The exit code of a run that fails with this error. -/
def exitCode (e : Error) : Nat := e.kind.exitCode

end Error

/-- The stages of a provisioning run, in the order they run. -/
inductive Stage where
  | link
  | resolve
  | install
  | seed
  deriving DecidableEq, Repr

namespace Stage

/-- Every stage, in order. -/
def all : List Stage := [.link, .resolve, .install, .seed]

/-- The lowercase name of a stage. -/
def name : Stage → String
  | .link => "link"
  | .resolve => "resolve"
  | .install => "install"
  | .seed => "seed"

/-- The position of a stage in a run. -/
def rank : Stage → Nat
  | .link => 0
  | .resolve => 1
  | .install => 2
  | .seed => 3

end Stage

end Provisioning
