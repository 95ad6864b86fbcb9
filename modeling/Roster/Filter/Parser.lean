import Roster.Filter.Basic
import Roster.Text.Blank
import Roster.Text.Segments
import Roster.Text.Word
import Roster.Value.Fault

/-!
# Reading filters

A filter is written as groups between upright bars, each of them conditions between semicolons,
with blanks around the separators.  A condition is a word, the sign of an operator, and a value.
Conditions that cannot be read or name no known field are dropped with a warning.
-/

namespace Roster
namespace Filter

/-- Read a condition: a word, a sign, and at least one more character. -/
def readCondition (cs : List Char) : Option Condition :=
  match cs.span Text.isWord with
  | (name, sign :: value) =>
      if name.isEmpty || value.isEmpty then none
      else
        (Operator.ofSign? sign).map fun operator =>
          ⟨String.ofList name, operator, String.ofList value⟩
  | _ => none

/-- What becomes of one part between separators. -/
inductive Part where
  | blank
  | condition (c : Condition)
  | dropped (warning : String)
  deriving DecidableEq, Repr

def readPart (known : String → Bool) (cs : List Char) : Part :=
  if cs.isEmpty then .blank
  else
    match readCondition cs with
    | none => .dropped ("Invalid filter condition '" ++ String.ofList cs ++ "'")
    | some c =>
        if known c.field then .condition c
        else .dropped ("Unknown field '" ++ c.field ++ "' in filter")

def Part.condition? : Part → Option Condition
  | .condition c => some c
  | _ => none

def Part.warning? : Part → Option String
  | .dropped warning => some warning
  | _ => none

/-- Parts between a separator, without the blanks around it. -/
def trimmedParts (separator : Char) (cs : List Char) : List (List Char) :=
  (Text.cut separator cs).map Text.trim

def readGroup (known : String → Bool) (cs : List Char) : List Part :=
  (trimmedParts ';' cs).map (readPart known)

def readParts (known : String → Bool) (cs : List Char) : List (List Part) :=
  (trimmedParts '|' cs).map (readGroup known)

/-- Read a filter; `known` says which fields there are. -/
def parse (known : String → Bool) (s : String) : Filter :=
  if (Text.trim s.toList).isEmpty then .all
  else
    let parts := readParts known s.toList
    { groups := (parts.map (·.filterMap Part.condition?)).filter (!·.isEmpty)
      raw := s
      warnings := parts.flatten.filterMap Part.warning? }

/-- Read the filter that a value gives; `fields` has the names that are known. Of the values that
are no texts only those that are not given select everything. -/
def ofValue (v fields : Value) : Except ValueFault Filter :=
  if !v.isGiven then .ok .all
  else
    match v with
    | .str s =>
        if (Text.trim s.toList).isEmpty then .ok .all
        else do
          let known ← (← fields.items).mapM Value.asKey
          .ok (parse (fun name => known.contains (.str name)) s)
    | _ => .error .noMember

end Filter
end Roster
