import Roster.Field.Definition
import Roster.Value.Display

/-!
# Schemas

A schema is the ordered list of field names of a store with a definition for each name.
-/

namespace Roster

/-- Field names in order, and definitions by name. -/
structure Schema where
  fields : List String
  definitions : List (String × Definition)
  deriving DecidableEq, Repr

namespace Schema

def get? (schema : Schema) (name : String) : Option Definition :=
  schema.definitions.lookup name

def has (schema : Schema) (name : String) : Bool :=
  (schema.get? name).isSome

/-- Both schemas have the same fields, and the same definitions in whatever order. -/
def agrees (a b : Schema) : Bool :=
  a.fields == b.fields && a.definitions.length == b.definitions.length
    && a.definitions.all fun (name, d) => b.get? name == some d

/-- Fields in order, each with its definition; every field must have one. -/
def defined (schema : Schema) : Except ValueFault (List (String × Definition)) :=
  schema.fields.mapM fun name =>
    match schema.get? name with
    | some d => .ok (name, d)
    | none => .error .missingKey

/-- The schema as a map: the field names and, by name, the attributes of each field. -/
def toEntries (schema : Schema) : Except ValueFault Entries := do
  let defined ← schema.defined
  .ok [("fields", .list (schema.fields.map .str)),
    ("field_definitions", .map (Entries.setAll [] (defined.map fun (name, d) => (name, d.toValue))))]

/-- The definitions under their key of a map. -/
def readDefinitions (v : Value) : Except ValueFault (List (String × Definition)) :=
  match v.get? "field_definitions" with
  | none => .ok []
  | some definitions =>
      if definitions.isGiven then do
        (← definitions.entries).mapM fun (name, d) => (Definition.ofValue d).map fun d => (name, d)
      else .ok []

/-- The field names under their key of a map, as they were supplied. -/
def readFields (v : Value) : Except ValueFault (List Value) :=
  match v.get? "fields" with
  | none => .ok []
  | some fields => if fields.isGiven then fields.items else .ok []

def ofValue (v : Value) : Except ValueFault Schema := do
  let _ ← v.entries
  let definitions ← readDefinitions v
  let fields ← readFields v
  .ok ⟨fields.map Value.text, definitions⟩

/-- The listed names that have no definition; what is no text never has one. -/
def undefined (schema : Schema) (listed : List Value) : Except ValueFault (List Value) := do
  let names ← listed.mapM Value.asKey
  .ok (names.filter fun name => !name.text?.any schema.has)

end Schema
end Roster
