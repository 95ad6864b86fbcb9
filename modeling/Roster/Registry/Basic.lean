import Roster.Check.Policy
import Roster.Manifest.Basic
import Roster.Storage.Path
import Roster.Store.Basic
import Roster.Text.Blank

/-!
# Registries

A registry is a schema in use: it says what a valid user is and what a new one starts out with.
The records are in a store beside it.
-/

namespace Roster

/-- A registry of users. -/
structure Registry where
  manifest : Manifest
  /-- Data are stored without validation. -/
  bypass : Bool := false
  /-- The file from which the manifest was read. -/
  configFile : Option Path := none
  deriving DecidableEq, Repr

namespace Registry

def schema (r : Registry) : Schema := r.manifest.schema

/-- Data as they are checked: texts without the blanks around them. -/
def clean (data : Entries) : Record :=
  data.map fun (name, v) => (name, Text.strip v.stored)

def verdict (r : Registry) (data : Record) : Verdict String :=
  if r.bypass then Policy.bypass data
  else Policy.check r.schema (data.map fun (name, text) => (name, some text))

def validate (r : Registry) (data : Value) : Except ValueFault (Verdict String) := do
  return r.verdict (clean (← data.entries))

/-- What a field of a new user holds: its default, or else its null value. -/
def initialValue (schema : Schema) (name : String) : String :=
  match schema.get? name with
  | some d => d.default.getD d.nullValue
  | none => ""

/-- What a new user starts out with. -/
def initialRecord (r : Registry) : Record :=
  Entries.setAll [] (r.schema.fields.map fun name => (name, initialValue r.schema name))

/-- The entries that reach the store: known fields that a caller can change. -/
def storable (r : Registry) (data : Record) : Record :=
  data.filter fun entry => r.schema.has entry.1 && !Record.readOnlyFields.contains entry.1

end Registry
end Roster
