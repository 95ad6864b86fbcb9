import Roster.Check.Kind
import Roster.Manifest.Reference
import Roster.Registry.Basic
import Roster.Store.Opening

/-!
# What a registry tells of itself

Forms ask a registry for its fields; people ask it for its configuration.
-/

namespace Roster

/-- What a form needs to show a field. -/
structure FieldHints where
  label : String
  kind : Value
  maxLength : Option Int
  options : List String
  description : String
  required : Bool
  deriving DecidableEq, Repr

namespace Registry

/-- Definition of the field that a value names; a list or a map can name nothing. -/
def definition? (r : Registry) (name : Value) : Except ValueFault (Option (String × Definition)) :=
  name.asKey.map fun name =>
    name.text?.bind fun name => (r.schema.get? name).map fun d => (name, d)

/-- Hints for the field that a value names. -/
def hints? (r : Registry) (name : Value) : Except ValueFault (Option FieldHints) := do
  return (← r.definition? name).map fun (name, d) => {
    label := d.shownName name
    kind := d.kind
    maxLength := d.maxLength
    options := if d.cleanOptions.isEmpty then d.options else d.cleanOptions
    description := d.description
    required := d.required }

/-- Validator of the field that a value names. -/
def validator? (r : Registry) (name : Value) : Except ValueFault (Option ValidatorKind) := do
  return (← r.definition? name).bind fun (_, d) => d.validator?

/-- The directory of the storage: as the backend knows it, or else that of the configuration. -/
def directory (r : Registry) : Except ValueFault Path :=
  match State.given? r.manifest.state "storage_dir" with
  | some v => Path.ofValue v
  | none => .ok (r.configFile.elim {} Path.parent)

/-- The configuration in a form for people. -/
def describe (r : Registry) : Except ValueFault String := do
  Reference.render r.manifest (← r.directory)

end Registry
end Roster
