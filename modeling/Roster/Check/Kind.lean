import Roster.Value.Basic
import Roster.Field.Definition

/-!
# Kinds of validators

A field is checked by the validator that its definition asks for, or by the one named like its
kind; a field without either is never checked.
-/

namespace Roster

/-- The validators that a field can be checked with. -/
inductive ValidatorKind where
  | text
  | email
  | phone
  | date
  | timestamp
  | boolean
  | integer
  | enum
  | moniker
  | name
  deriving DecidableEq, Repr

namespace ValidatorKind

def all : List ValidatorKind :=
  [.text, .email, .phone, .date, .timestamp, .boolean, .integer, .enum, .moniker, .name]

def label : ValidatorKind → String
  | .text => "text"
  | .email => "email"
  | .phone => "phone"
  | .date => "date"
  | .timestamp => "timestamp"
  | .boolean => "boolean"
  | .integer => "integer"
  | .enum => "enum"
  | .moniker => "moniker"
  | .name => "name"

def ofName? (name : String) : Option ValidatorKind :=
  all.find? (·.label == name)

def ofValue? : Value → Option ValidatorKind
  | .str s => ofName? s
  | _ => none

/-- A validator is found by its own name. -/
@[simp] theorem ofName?_label (kind : ValidatorKind) : ofName? kind.label = some kind := by
  cases kind <;> decide

end ValidatorKind

namespace Definition

/-- The validator of a field: the one asked for, else the one named like its kind. -/
def validator? (d : Definition) : Option ValidatorKind :=
  (ValidatorKind.ofValue? d.validateAs).or (ValidatorKind.ofValue? d.kind)

end Definition
end Roster
