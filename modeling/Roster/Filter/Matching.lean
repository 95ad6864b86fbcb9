import Roster.Filter.Basic
import Roster.Text.Case
import Roster.Text.Segments
import Roster.Value.Display

/-!
# Selecting records in memory

A missing value counts as the empty text.  Occurrence ignores the case of ASCII letters, order is
that of code points.
-/

namespace Roster

/-- Texts of a record by field. -/
abbrev Record := List (String × String)

namespace Record

/-- Value of a field, the empty text if there is none. -/
def valueOf (record : Record) (field : String) : String :=
  (record.lookup field).getD ""

/-- Texts of the entries of a map; null counts as the empty text. -/
def ofEntries (entries : Entries) : Record :=
  entries.map fun (field, v) => (field, v.stored)

end Record

namespace Operator

/-- The operator holds between the value of a field and the value of a condition. -/
def holds (op : Operator) (value target : String) : Bool :=
  match op with
  | .equals => value == target
  | .contains => Text.occursIn (Text.foldAscii target).toList (Text.foldAscii value).toList
  | .notContains => !Text.occursIn (Text.foldAscii target).toList (Text.foldAscii value).toList
  | .greater => decide (target < value)
  | .less => decide (value < target)

end Operator

namespace ConditionOf

def holds (c : Condition) (record : Record) : Bool :=
  c.operator.holds (record.valueOf c.field) c.value

end ConditionOf

namespace Filter

def groupsHold (groups : Groups) (record : Record) : Bool :=
  groups.any fun group => group.all (·.holds record)

def selects (f : Filter) (record : Record) : Bool :=
  f.selectsAll || groupsHold f.groups record

end Filter

/-- A condition whose sign may be no operator, in which case it is kept as it was written. -/
abbrev LooseCondition := ConditionOf (Except String Operator)

namespace LooseCondition

/-- A condition without an operator never holds. -/
def holds (c : LooseCondition) (record : Record) : Bool :=
  match c.operator with
  | .ok op => op.holds (record.valueOf c.field) c.value
  | .error _ => false

/-- The operator of a sign, or the sign itself. -/
def readSign (sign : String) : Except String Operator :=
  match sign.toList with
  | [c] => (Operator.ofSign? c).elim (.error sign) .ok
  | _ => .error sign

/-- Some group holds for a record; without groups every record is selected. -/
def groupsSelect (groups : List (List LooseCondition)) (record : Record) : Bool :=
  groups.isEmpty || groups.any fun group => group.all (holds · record)

/-- What to say of a sign that cannot become part of a query. -/
def unsupported (sign : String) : String :=
  "Unsupported filter operator: " ++ Text.quoted sign

/-- The condition, if its sign is an operator; else the sign. -/
def resolve (c : LooseCondition) : Except String Condition :=
  match c.operator with
  | .ok op => .ok ⟨c.field, op, c.value⟩
  | .error sign => .error sign

end LooseCondition
end Roster
