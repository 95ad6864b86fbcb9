import Roster.Field.Attribute

/-!
# Field definitions

A definition describes one field of a user record.  It is read from a map of attributes and
written back as one; attributes that it does not know are kept beside the others.
-/

namespace Roster

/-- One field of a user record. -/
structure Definition where
  /-- Name of the field, as supplied. -/
  fieldName : Value
  category : Value := .str "app"
  kind : Value := .str "text"
  validateAs : Value := .null
  label : String := ""
  description : String := ""
  required : Bool := false
  mustValidate : Bool := false
  options : List String := []
  /-- The options without the marker of the default one. -/
  cleanOptions : List String := []
  default : Option String := none
  /-- Text that stands for no data. -/
  nullValue : String := ""
  maxLength : Option Int := none
  /-- Attributes that the library does not know. -/
  extras : Entries := []
  deriving DecidableEq, Repr

namespace Definition

/-- Set one attribute from a supplied value. -/
def assign (d : Definition) (a : Attribute) (v : Value) : Except ValueFault Definition :=
  match a with
  | .fieldName => .ok { d with fieldName := v }
  | .category => .ok { d with category := v }
  | .kind => .ok { d with kind := v }
  | .validateAs => .ok { d with validateAs := v }
  | .label => .ok { d with label := v.stored }
  | .description => .ok { d with description := v.stored }
  | .required => .ok { d with required := Attribute.flag v }
  | .mustValidate => .ok { d with mustValidate := Attribute.flag v }
  | .options => (Attribute.optionList v).map fun options => { d with options }
  | .cleanOptions => (Attribute.optionList v).map fun cleanOptions => { d with cleanOptions }
  | .default => .ok { d with default := Attribute.optionalText v }
  | .nullValue => .ok { d with nullValue := v.stored }
  | .maxLength => (Attribute.length v).map fun maxLength => { d with maxLength }

/-- Add one entry of a map: an attribute is set, anything else is kept among the extras. -/
def addEntry (d : Definition) (entry : String × Value) : Except ValueFault Definition :=
  match Attribute.ofName? entry.1 with
  | some a => d.assign a entry.2
  | none =>
      if entry.1 == Attribute.extrasName then .ok d
      else .ok { d with extras := Entries.set d.extras entry.1 entry.2 }

/-- The definition that a map of attributes gives; it must name the field. -/
def ofEntries (entries : Entries) : Except ValueFault Definition := do
  let d ← entries.foldlM addEntry { fieldName := .null }
  if Entries.has entries "field_name" then .ok d else .error .missingFieldName

def ofValue (v : Value) : Except ValueFault Definition := do
  ofEntries (← v.entries)

/-- The attributes as a map, without the extras. -/
def attributes (d : Definition) : Entries :=
  [("field_name", d.fieldName), ("category", d.category), ("type", d.kind),
    ("validate_as", d.validateAs), ("label", .str d.label), ("description", .str d.description),
    ("required", .bool d.required), ("must_validate", .bool d.mustValidate),
    ("options", Attribute.ofOptions d.options),
    ("clean_options", Attribute.ofOptions d.cleanOptions),
    ("default", Attribute.ofOptionalText d.default), ("null_value", .str d.nullValue),
    ("max_length", Attribute.ofLength d.maxLength)]

/-- All attributes as a map, the extras last. -/
def toEntries (d : Definition) : Entries :=
  d.attributes ++ d.extras.filter fun extra => !Entries.has d.attributes extra.1

def toValue (d : Definition) : Value :=
  .map d.toEntries

/-- Name that messages give a field: its label, or its own name. -/
def shownName (d : Definition) (name : String) : String :=
  if d.label == "" then name else d.label

end Definition
end Roster
