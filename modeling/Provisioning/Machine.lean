import Provisioning.Error
import Provisioning.FileTree.Basic
import Provisioning.Host.Memory
import Provisioning.Process.Output
import Provisioning.Shell.Run
/-!
The machine extensions are provisioned on.

Provisioning reads and writes files, talks to the host application and runs
seed scripts. The machine holds all of it: the file tree with the working
directory and environment of the process, the clock text written into seed
markers, the process number used in temporary file names, the host, the
store of seed markers and the runner of seed scripts.

Actions on the machine keep what they changed even when they then fail,
as a program's writes to disk stay when it stops with an error.
-/

namespace Provisioning

/-- A host application driven through its command-line program. -/
structure CommandHost where
  /-- The program, found on the search path when it has no slash. -/
  program : String
  /-- The directory the program runs in, unless a prefix is used. -/
  siteDir : Option String
  /-- Words put before the program, such as `docker exec site`. -/
  execPrefix : List String
  timeoutSecs : Nat
  /-- Whether a refresh first flushes the host's caches. -/
  flushOnRefresh : Bool
  deriving Inhabited

/-- How the host application is reached. -/
inductive Host where
  | memory (h : MemoryHost)
  | command (h : CommandHost)
  deriving Inhabited

/-- Where seed markers are kept. -/
inductive MarkerStore where
  /-- A marker file of the given name in each extension's directory under `root`. -/
  | files (root : String) (fileName : String)
  /-- A set of names kept in memory. -/
  | memory (names : List String)
  deriving Inhabited

/-- What runs seed scripts. -/
inductive SeedRunner where
  /-- Records each run as the extension's name and script path, and fails for the
  names listed. -/
  | recording (failing : List String) (runs : List (String × String))
  /-- Runs each script with an interpreter, in the extension's directory. -/
  | shell (interpreter : String) (timeoutSecs : Nat)
  deriving Inhabited

/-- The machine: files, process context, host, markers, seed runner, and what the process
has printed. -/
structure Machine where
  files : FileTree
  cwd : List String
  env : List (String × String)
  /-- The current time, as written into seed markers. -/
  clock : String
  /-- The process number, as written into temporary file names. -/
  pid : String
  host : Host
  markers : MarkerStore
  runner : SeedRunner
  /-- What the process has written to its standard output. -/
  stdout : String := ""
  /-- What the process has written to its standard error. -/
  stderr : String := ""
  deriving Inhabited

/-- An action on the machine that may fail; changes made before a failure stay. -/
abbrev Act := EStateM Error Machine

namespace Machine

/-- A failed file operation on `path`. -/
def fsError (path : String) (e : OsError) : Error := .store (.io path e)

/-- Whether a path leads to a directory. -/
def isDir (m : Machine) (p : String) : Bool := m.files.isDir m.cwd p

/-- Whether a path leads to a regular file. -/
def isFile (m : Machine) (p : String) : Bool := m.files.isFile m.cwd p

/-- The text of a file, `none` when nothing is there. -/
def readTextIfExists (m : Machine) (p : String) : Except Error (Option String) :=
  (m.files.readTextIfExists m.cwd p).mapError (fsError p)

/-- The absolute path a path leads to, every link followed. -/
def canonical (m : Machine) (p : String) : Except OsError String :=
  (m.files.canonicalize m.cwd p).map locationText

/-- The names in a directory, in code-point order. -/
def readDir (m : Machine) (p : String) : Except OsError (List String) := m.files.readDir m.cwd p

end Machine

namespace Act

/-- Read from the machine without changing it. -/
def read {α : Type} (f : Machine → Except Error α) : Act α := fun m =>
  match f m with
  | .ok a => .ok a m
  | .error e => .error e m

/-- Change the file tree, a failure described by `wrap`. -/
def change (wrap : OsError → Error) (f : FileTree → List String → Except OsError FileTree) : Act Unit :=
  fun m =>
    match f m.files m.cwd with
    | .ok t => .ok () { m with files := t }
    | .error e => .error (wrap e) m

/-- Change the file tree, giving the system error itself on failure. -/
def try_ (f : FileTree → List String → Except OsError FileTree) : Act (Except OsError Unit) :=
  fun m =>
    match f m.files m.cwd with
    | .ok t => .ok (.ok ()) { m with files := t }
    | .error e => .ok (.error e) m

/-- Create a directory and its missing parents. -/
def createDirAll (p : String) : Act Unit :=
  change (Machine.fsError p) fun t cwd => t.mkdirAll cwd p

/-- Write a file through a temporary file beside it, renamed into place; the
parent directories are created first. A temporary file that cannot be
renamed stays behind. -/
def writeAtomic (p : String) (content : String) : Act Unit := do
  match Path.parent? p with
  | some parent => createDirAll parent
  | none => pure ()
  let m ← get
  let temp := Path.withFileName p ("." ++ (Path.fileName? p).getD "" ++ "." ++ m.pid ++ ".tmp")
  change (Machine.fsError temp) fun t cwd => t.writeBytes cwd temp (bytesOf content)
  change (Machine.fsError p) fun t cwd => t.rename cwd temp p

/-- Remove a file, telling whether one was there. -/
def removeFileIfExists (p : String) : Act Bool := fun m =>
  match m.files.unlink m.cwd p with
  | .ok t => .ok true { m with files := t }
  | .error .notFound => .ok false m
  | .error e => .error (Machine.fsError p e) m

/-- Run a command on the machine to its end, its standard input empty; the files it
leaves behind are kept. A program that cannot be started gives the system error. -/
def runCommand (cmd : Command) : Act (Except OsError Captured) := fun m =>
  let cwd := match cmd.cwd with
    | some dir => m.files.canonicalize m.cwd dir
    | none => .ok m.cwd
  match cwd with
  | .error e => .ok (.error e) m
  | .ok cwd =>
    let env := cmd.env.foldl (fun env (n, v) => env.filter (·.1 != n) ++ [(n, v)]) m.env
    match Shell.startProgram m.files cwd env cmd.program cmd.args with
    | .error e => .ok (.error e) m
    | .ok fin =>
      .ok (.ok ⟨fin.code.map Int.ofNat, fin.out, fin.err⟩) { m with files := fin.files }

/-- Print a text on standard output. -/
def print (s : String) : Act Unit := modify fun m => { m with stdout := m.stdout ++ s }

/-- Print a text on standard error. -/
def printErr (s : String) : Act Unit := modify fun m => { m with stderr := m.stderr ++ s }

end Act

/-- The text of a failed start of a program. -/
def startFailure (program : String) (e : OsError) : String :=
  "failed to start '" ++ program ++ "': " ++ e.message

end Provisioning
