/-!
# Filters

A filter selects records by alternatives of conditions: a record is selected when all conditions
of some group hold.  A filter without groups selects every record.
-/

namespace Roster

/-- How a condition compares the value of a field with its own value. -/
inductive Operator where
  | equals
  | contains
  | notContains
  | greater
  | less
  deriving DecidableEq, Repr

namespace Operator

def all : List Operator := [.equals, .contains, .notContains, .greater, .less]

def sign : Operator → Char
  | .equals => '='
  | .contains => ':'
  | .notContains => '!'
  | .greater => '>'
  | .less => '<'

def ofSign? (c : Char) : Option Operator :=
  all.find? (·.sign == c)

/-- An operator is found by its sign. -/
@[simp] theorem ofSign?_sign (op : Operator) : ofSign? op.sign = some op := by
  cases op <;> decide

/-- A sign stands for one operator only. -/
theorem sign_inj {a b : Operator} (h : a.sign = b.sign) : a = b := by
  cases a <;> cases b <;> first | rfl | exact absurd h (by decide)

end Operator

/-- One condition on a field. The type of operators leaves room for signs that are none. -/
structure ConditionOf (ω : Type) where
  field : String
  operator : ω
  value : String
  deriving DecidableEq, Repr

/-- A condition with one of the five operators. -/
abbrev Condition := ConditionOf Operator

/-- Alternatives of groups of conditions. -/
abbrev Groups := List (List Condition)

/-- A filter as it was read: its groups, the text they were read from, and what was dropped. -/
structure Filter where
  groups : Groups := []
  raw : String := ""
  warnings : List String := []
  deriving DecidableEq, Repr

namespace Filter

def all : Filter := {}

def selectsAll (f : Filter) : Bool :=
  f.groups.isEmpty

/-- Names of the fields that occur in conditions, without repetition, in increasing order. -/
def fieldsUsed (f : Filter) : List String :=
  ((f.groups.flatten.map ConditionOf.field).eraseDups).mergeSort fun a b => a ≤ b

end Filter
end Roster
