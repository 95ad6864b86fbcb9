import Roster.Value.Fault

/-!
# Kinds of fields

Every stored value is a text, so each kind of field has a text that stands for "no data", its null
value.
-/

namespace Roster

/-- A kind of field: its name, the text that stands for no data, and the column type in tables. -/
structure FieldKind where
  name : String
  nullValue : String
  storageType : String := "TEXT"
  deriving DecidableEq, Repr

namespace FieldKind

/-- The kinds that a field can have. -/
def all : List FieldKind := [
  ⟨"text", "", "TEXT"⟩,
  ⟨"enum", "", "TEXT"⟩,
  ⟨"boolean", "0", "TEXT"⟩,
  ⟨"date", "0000-00-00", "TEXT"⟩,
  ⟨"timestamp", "0000-00-00 00:00:00", "TEXT"⟩,
  ⟨"email", "", "TEXT"⟩,
  ⟨"phone", "", "TEXT"⟩,
  ⟨"integer", "0", "TEXT"⟩,
  ⟨"moniker", "", "TEXT"⟩,
  ⟨"name", "", "TEXT"⟩,
  ⟨"system", "", "TEXT"⟩]

def ofName? (name : String) : Option FieldKind :=
  all.find? (·.name == name)

/-- The kind that a value names; a list or a map can name nothing. -/
def find? (v : Value) : Except ValueFault (Option FieldKind) :=
  if v.isGiven then do
    match ← v.asKey with
    | .str name => .ok (ofName? name)
    | _ => .ok none
  else .ok none

/-- Null value of the kind that a value names, that of plain text when it names none. -/
def nullValueOf (v : Value) : Except ValueFault String := do
  let kind ← find? (if v.isGiven then v else .str "text")
  .ok ((kind.map FieldKind.nullValue).getD "")

end FieldKind
end Roster
