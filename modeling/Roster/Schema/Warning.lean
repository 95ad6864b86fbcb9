import Roster.Value.Display
import Roster.Value.Fault

/-!
# What assembling a schema passes over

Nothing in a setup stops a schema from being assembled unless a value has the wrong kind
altogether; whatever cannot be applied is passed over with a warning.
-/

namespace Roster

/-- Why one attribute of an override was not applied as supplied. -/
inductive AttributeProblem where
  /-- The attribute can never be changed. -/
  | protectedAttribute
  /-- No validator has this name; plain text is checked instead. -/
  | unknownValidator (v : Value)
  | invalidValue (v : Value)
  deriving DecidableEq, Repr

/-- Something that was passed over. -/
inductive SchemaWarning where
  | nonStandardField (name : String)
  | overrideNotMap (kind : String)
  | overrideWithoutName
  | overrideOfProtected (name : Value)
  | overrideOfUnknown (name : Value)
  | overrideProblems (name : String) (problems : List (String × AttributeProblem))
  | unsupportedEntry (v : Value)
  | entryWithoutName
  | nameInUse (name : String)
  | duplicateName (name : String)
  | invalidDefinition (name : String) (fault : ValueFault)
  deriving DecidableEq, Repr

namespace AttributeProblem

/-- Wording of a problem with an attribute. -/
def message (name : String) : AttributeProblem → String
  | .protectedAttribute => "protected attribute '" ++ name ++ "' cannot be changed"
  | .unknownValidator v => "unknown validator type '" ++ v.text ++ "' - falling back to 'text'"
  | .invalidValue v => "invalid value " ++ v.shown

end AttributeProblem

namespace SchemaWarning

def message : SchemaWarning → String
  | .nonStandardField name =>
      "Non-standard field requested: " ++ name ++ "; configure it with 'app_fields' instead"
  | .overrideNotMap kind => "Field override must be a mapping, got " ++ kind ++ "; skipping"
  | .overrideWithoutName => "Field override missing field_name; skipping"
  | .overrideOfProtected name => "Cannot override protected field '" ++ name.text ++ "'; skipping"
  | .overrideOfUnknown name =>
      "Cannot override unknown field '" ++ name.text
        ++ "'; field must be included via include_standard_fields or app_fields"
  | .overrideProblems name problems =>
      "Field '" ++ name ++ "' override: "
        ++ String.intercalate ", " (problems.map fun (a, p) => a ++ ": " ++ p.message a)
  | .unsupportedEntry v => "Unsupported app field entry " ++ v.shown ++ "; skipping"
  | .entryWithoutName => "App field definition missing field_name; skipping"
  | .nameInUse name => "Supplemental field name " ++ name ++ " already in use; skipping"
  | .duplicateName name => "Duplicate app field " ++ name ++ "; skipping"
  | .invalidDefinition name fault =>
      "Invalid definition for app field " ++ name ++ ": " ++ fault.message ++ "; skipping"

end SchemaWarning
end Roster
