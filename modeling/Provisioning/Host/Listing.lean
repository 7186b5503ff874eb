import Provisioning.Host.Status
import Provisioning.Json.Reader
import Provisioning.Text.Layout
/-!
Reading the host's extension listing.

The host prints its listing as a JSON array of rows with a `key` and a
`status` (the status may be left out, and other fields are ignored), but it
may print notices before it, some of them starting with a bracket, such as
`[warning] ...`. The listing is found line by line: the first line whose
text, after leading blanks, starts with `[` and from which a whole array of
rows can be read wins, whatever follows the array. If no line gives one,
the error of the last line that was tried is the answer, or, when no line
even started with a bracket, a message quoting the whole trimmed output.
-/

namespace Provisioning.Listing

/-- The shape of one row of the listing. -/
def rowShape : Shape :=
  .record "CvRow" [("key", .text "a string", false), ("status", .text "a string", true)]

/-- The shape of the listing. -/
def shape : Shape := .list rowShape

/-- A listing row from its datum. -/
def rowOfDatum (d : Datum) : HostEntry :=
  ⟨((d.field? "key").bind Datum.text?).getD "",
    HostStatus.ofWord (((d.field? "status").bind Datum.text?).getD "")⟩

/-- The rows of a listing datum. -/
def rowsOfDatum : Datum → List HostEntry
  | .list items => items.map rowOfDatum
  | _ => []

/-- Read the listing from the host's standard output. -/
def parse (stdout : String) : Except String (List HostEntry) :=
  let rec go : List String → Option String → Except String (List HostEntry)
    | [], last => .error (last.getD ("expected a JSON array, got: " ++ Text.trim stdout))
    | line :: rest, last =>
      let tail := Text.trimStart (String.join (line :: rest))
      if !(Text.trimStart line).startsWith "[" then go rest last
      else
        match Json.readLeading shape tail with
        | some (.ok d) => .ok (rowsOfDatum d)
        | some (.error e) => go rest (some e.text)
        | none => go rest last
  go (Text.linesInclusive stdout) none

end Provisioning.Listing
