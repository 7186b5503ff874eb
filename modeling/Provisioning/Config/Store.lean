import Provisioning.Config.Kitchen
import Provisioning.Config.Toml.Document
import Provisioning.Config.Toml.Writer
import Provisioning.Config.Yaml.Writer
import Provisioning.Json.Reader
import Provisioning.Machine
/-!
# Configuration files

A configuration file is TOML, JSON or YAML, as its extension says (`.toml`,
`.json`, `.yaml` or `.yml`, in any case); any other extension is refused
before the file is touched.

Loading reads the file, parses it in its format against the shape of a
configuration, and checks the result. Every failure is a configuration
error: a missing file names the path and the system error, a document
that does not parse says `invalid <FORMAT> in <path>: <message>`, and a
refused value says what rule it breaks.

Discovery takes an explicit file, which must exist, or else
`civikitchen.toml` in a directory when there is one, or else the defaults.

Saving writes the configuration in the format of the file's extension,
through a temporary file renamed into place, creating missing directories.
A value the format cannot hold (in TOML, a count past the signed 64-bit
range) is refused before anything is written.
-/

namespace Provisioning

/-- The formats of configuration files. -/
inductive ConfigFormat where
  | toml
  | json
  | yaml
  deriving DecidableEq, Repr

namespace ConfigFormat

/-- The format's name in messages. -/
def name : ConfigFormat → String
  | .toml => "TOML"
  | .json => "JSON"
  | .yaml => "YAML"

/-- The format of a lowercase extension. -/
def ofExtension (ext : String) : Except StoreError ConfigFormat :=
  if ext == "toml" then .ok .toml
  else if ext == "json" then .ok .json
  else if ext == "yaml" || ext == "yml" then .ok .yaml
  else .error (.unsupportedFormat ext)

/-- Read a document in this format against a shape; the error is the reader's message. -/
def read (f : ConfigFormat) (shape : Shape) (text : String) : Except String Datum :=
  match f with
  | .toml => Toml.readDocument shape text
  | .json => (Json.readDocument shape text).mapError Json.ReadError.text
  | .yaml => Yaml.readDocument shape text

/-- Write a document in this format; only TOML can refuse one, for an integer it cannot hold. -/
def write (f : ConfigFormat) (doc : Json) : Except String String :=
  match f with
  | .toml => Toml.render doc
  | .json => .ok (Json.pretty doc)
  | .yaml => .ok (Yaml.write doc)

end ConfigFormat

/-- The lowercase extension of a file's name, empty when it has none. -/
def extensionOf (path : String) : String :=
  String.ofList (((Path.extension? path).getD "").toList.map Char.toLower)

/-- The name of the configuration file looked for in a directory. -/
def configFileName : String := "civikitchen.toml"

namespace KitchenConfig

/-- Read a configuration file, without checking the values. -/
def readFile (m : Machine) (path : String) : Except StoreError KitchenConfig := do
  let format ← ConfigFormat.ofExtension (extensionOf path)
  let text ← (m.files.readText m.cwd path).mapError (StoreError.io path)
  let d ← (format.read shape text).mapError (StoreError.parse path format.name)
  pure (ofDatum d)

/-- Load and check a configuration file. -/
def load (m : Machine) (path : String) : Except Error KitchenConfig := do
  let c ← (readFile m path).mapError fun e => Error.config e.message
  match c.problem? with
  | some p => throw (.config p)
  | none => pure c

/-- The configuration for a run: an explicit file, which must exist, or `civikitchen.toml`
in `dir` when there is one, or the defaults. -/
def discover (m : Machine) (explicit : Option String) (dir : String) : Except Error KitchenConfig :=
  match explicit with
  | some path =>
    if !m.isFile path then .error (.config ("configuration file " ++ path ++ " does not exist"))
    else load m path
  | none =>
    let candidate := Path.join dir configFileName
    if m.isFile candidate then load m candidate else .ok {}

/-- The text of a configuration in the format of a file's extension. -/
def render (c : KitchenConfig) (path : String) : Except StoreError String := do
  let format ← ConfigFormat.ofExtension (extensionOf path)
  (format.write c.toJson).mapError (StoreError.serialize path format.name)

/-- Save a configuration in the format of the file's extension. -/
def save (c : KitchenConfig) (path : String) : Act Unit := do
  match c.render path with
  | .error e => throw (.store e)
  | .ok text => Act.writeAtomic path text

end KitchenConfig

end Provisioning
