import Roster.Json.Reader
import Roster.Json.Writer
import Roster.Manifest.Basic
import Roster.Text.Utf8

/-!
# Manifests as JSON documents

The file that holds a manifest is JSON in UTF-8, with a line end at its end.
-/

namespace Roster
namespace Manifest

/-- Name of the file that holds a manifest, without its ending. -/
def stem : String := "users-config"

/-- Ending of the name of the file. -/
def ending : String := ".json"

def fileName : String := stem ++ ending

def document (m : Manifest) : Except ValueFault String := do
  .ok (Json.write (.map (← m.toEntries)) ++ "\n")

/-- The manifest in the octets of the file at a path. -/
def ofOctets (path : String) (octets : ByteArray) : Except Fault Manifest := do
  let text ← (Text.decodeUtf8 octets).mapError .undecodable
  match Json.read (String.ofList (Text.unifyLineEnds text.toList)) with
  | .error fault =>
      match fault.reason with
      | .longNumeral count => throw (.value (.longNumeral count))
      | _ => throw (.configuration (.unreadable path fault.message))
  | .ok (.map sections) => ofEntries sections
  | .ok _ => throw (.configuration (.fileNotMap path))

end Manifest
end Roster
