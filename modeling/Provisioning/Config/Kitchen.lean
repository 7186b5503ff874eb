import Provisioning.Json.Value
import Provisioning.Data.Shape
import Provisioning.Link.Strategy
import Provisioning.Text.Blank
/-!
The provisioning configuration.

Every setting has a default that fits the buildkit container, so a missing
configuration file is a valid configuration:

* `extensions_root`: the directory the host scans for extensions;
* `sources`: directories whose children are extension source trees;
* `link`: how extensions are made visible (`auto`, `symlink`, `copy`);
* `host`: the host's program (`cv`), the site directory it runs in (none when
  `null`), words put before it, its time limit in seconds, and whether a
  refresh first flushes the host's caches;
* `seeding`: the interpreter of seed scripts (`bash`), their time limit, and
  the name of the marker file.

A configuration is checked after reading, for what its format cannot say:
both time limits positive, the program and the interpreter not blank, and
the marker file a plain file name.
-/

namespace Provisioning

/-- Where the extensions root lies in the buildkit container. -/
def defaultExtensionsRoot : String := "/home/buildkit/buildkit/build/site/web/sites/default/files/civicrm/ext"

/-- The web root the host's program runs in, in the buildkit container. -/
def defaultSiteDir : String := "/home/buildkit/buildkit/build/site/web"

/-- How the host application is reached. -/
structure HostConfig where
  program : String := "cv"
  siteDir : Option String := some defaultSiteDir
  execPrefix : List String := []
  timeoutSecs : Nat := 300
  flushOnRefresh : Bool := true
  deriving DecidableEq, Repr, Inhabited

/-- How seed scripts are run and recorded. -/
structure SeedConfig where
  interpreter : String := "bash"
  timeoutSecs : Nat := 600
  markerFile : String := ".civicrm-seeded"
  deriving DecidableEq, Repr, Inhabited

/-- The whole provisioning configuration. -/
structure KitchenConfig where
  extensionsRoot : String := defaultExtensionsRoot
  sources : List String := []
  link : LinkStrategy := .auto
  host : HostConfig := {}
  seeding : SeedConfig := {}
  deriving DecidableEq, Repr, Inhabited

namespace KitchenConfig

/-- The shape of the `host` table. -/
def hostShape : Shape :=
  .record "HostConfig" [("program", .text "a string", true), ("site_dir", .maybe (.text "path string"), true),
    ("exec_prefix", .list (.text "a string"), true), ("timeout_secs", .count, true),
    ("flush_on_refresh", .flag, true)]

/-- The shape of the `seeding` table. -/
def seedingShape : Shape :=
  .record "SeedConfig" [("interpreter", .text "a string", true), ("timeout_secs", .count, true),
    ("marker_file", .text "a string", true)]

/-- The shape of a configuration document. -/
def shape : Shape :=
  .record "KitchenConfig" [("extensions_root", .text "path string", true),
    ("sources", .list (.text "path string"), true), ("link", .choice "LinkStrategy" LinkStrategy.names, true),
    ("host", hostShape, true), ("seeding", seedingShape, true)]

/-- The host settings of a datum read against `hostShape`, defaults for what is absent. -/
def hostOfDatum (d : Datum) : HostConfig :=
  let dflt : HostConfig := {}
  { program := ((d.field? "program").bind Datum.text?).getD dflt.program
    siteDir := match d.field? "site_dir" with
      | some (.some v) => v.text?
      | some .none => none
      | _ => dflt.siteDir
    execPrefix := ((d.field? "exec_prefix").bind Datum.texts?).getD []
    timeoutSecs := ((d.field? "timeout_secs").bind Datum.count?).getD dflt.timeoutSecs
    flushOnRefresh := ((d.field? "flush_on_refresh").bind Datum.flag?).getD true }

/-- The seeding settings of a datum read against `seedingShape`. -/
def seedingOfDatum (d : Datum) : SeedConfig :=
  let dflt : SeedConfig := {}
  { interpreter := ((d.field? "interpreter").bind Datum.text?).getD dflt.interpreter
    timeoutSecs := ((d.field? "timeout_secs").bind Datum.count?).getD dflt.timeoutSecs
    markerFile := ((d.field? "marker_file").bind Datum.text?).getD dflt.markerFile }

/-- The configuration of a datum read against `shape`. -/
def ofDatum (d : Datum) : KitchenConfig :=
  { extensionsRoot := ((d.field? "extensions_root").bind Datum.text?).getD defaultExtensionsRoot
    sources := ((d.field? "sources").bind Datum.texts?).getD []
    link := match d.field? "link" with
      | some (.choice o) => (LinkStrategy.ofName? o).getD .auto
      | _ => .auto
    host := ((d.field? "host").map hostOfDatum).getD {}
    seeding := ((d.field? "seeding").map seedingOfDatum).getD {} }

/-- Why a configuration is refused, checked in a fixed order. -/
def problem? (c : KitchenConfig) : Option String :=
  let marker := c.seeding.markerFile
  if c.host.timeoutSecs == 0 then some "host.timeout_secs must be positive"
  else if c.seeding.timeoutSecs == 0 then some "seeding.timeout_secs must be positive"
  else if (Text.trim c.host.program).isEmpty then some "host.program must not be empty"
  else if (Text.trim c.seeding.interpreter).isEmpty then some "seeding.interpreter must not be empty"
  else if marker.isEmpty || marker.contains '/' || marker.contains '\\' || marker == "." || marker == ".." then
    some ("seeding.marker_file must be a plain file name, got '" ++ marker ++ "'")
  else none

/-- The settings as a document, in their written order; no site directory is `null`. -/
def toJson (c : KitchenConfig) : Json :=
  .obj [("extensions_root", .str c.extensionsRoot), ("sources", Json.strs c.sources),
    ("link", .str c.link.name),
    ("host", .obj [("program", .str c.host.program), ("site_dir", Json.opt .str c.host.siteDir),
      ("exec_prefix", Json.strs c.host.execPrefix), ("timeout_secs", Json.nat c.host.timeoutSecs),
      ("flush_on_refresh", .bool c.host.flushOnRefresh)]),
    ("seeding", .obj [("interpreter", .str c.seeding.interpreter),
      ("timeout_secs", Json.nat c.seeding.timeoutSecs), ("marker_file", .str c.seeding.markerFile)])]

theorem problem_host_timeout (c : KitchenConfig) (h : c.host.timeoutSecs = 0) :
    c.problem? = some "host.timeout_secs must be positive" := by
  simp [problem?, h]

end KitchenConfig

end Provisioning
