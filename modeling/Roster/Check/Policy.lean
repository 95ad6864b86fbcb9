import Roster.Check.Validator
import Roster.Schema.Basic

/-!
# Checking a record

The entries of a record are checked in order.  An unknown field and a field without a validator
are dropped with a warning, a missing value is passed over or, for a required field, rejects the
record, and a value that fails its validator rejects the record or is dropped, as the field says.
-/

namespace Roster

/-- A record as it is supplied: texts by field, `none` for no value. -/
abbrev Submission := List (String × Option String)

/-- The texts of the entries of a map, none for null. -/
def Submission.ofEntries (entries : Entries) : Submission :=
  entries.map fun (name, v) => (name, match v with | .null => none | v => some v.text)

/-- Outcome of checking a record. -/
structure Verdict (α : Type) where
  success : Bool
  /-- Values to store, in the order supplied. -/
  accepted : List (String × α) := []
  warnings : List String := []
  message : String := ""
  /-- The field that rejected the record. -/
  field : Option String := none
  deriving DecidableEq, Repr

/-- What the policy makes of one entry. -/
inductive Ruling where
  /-- The value is stored. -/
  | keep (value : String)
  /-- There is no value, and none is needed. -/
  | skip
  /-- The value is dropped. -/
  | warn (warning : String)
  /-- The whole record is rejected. -/
  | reject (message : String)
  deriving DecidableEq, Repr

namespace Policy

def isNull (d : Definition) (value : Option String) : Bool :=
  value.all (· == d.nullValue)

/-- Ruling on a value that is there, by the validator of the field. -/
def ruleValue (d : Definition) (name value : String) : Ruling :=
  match d.validator? with
  | none => .warn ("Validator not found for '" ++ name ++ "'; input skipped")
  | some kind =>
      match kind.check d name value with
      | .accepted => .keep value
      | .rejected message =>
          if d.mustValidate then .reject message else .warn (name ++ ": " ++ message)

def rule (schema : Schema) (name : String) (value : Option String) : Ruling :=
  match schema.get? name with
  | none => .warn ("Field '" ++ name ++ "' not recognized in schema; input data skipped")
  | some d =>
      if isNull d value then
        if d.required then .reject (d.shownName name ++ " is required") else .skip
      else ruleValue d name (value.getD "")

/-- Check the entries in order, after those already accepted and the warnings so far. -/
def checkFrom (schema : Schema) (accepted : List (String × String)) (warnings : List String) :
    Submission → Verdict String
  | [] => { success := true, accepted, warnings }
  | (name, value) :: rest =>
      match rule schema name value with
      | .keep text => checkFrom schema (accepted ++ [(name, text)]) warnings rest
      | .skip => checkFrom schema accepted warnings rest
      | .warn warning => checkFrom schema accepted (warnings ++ [warning]) rest
      | .reject message => { success := false, warnings, message, field := some name }

/-- Check a record against a schema. -/
def check (schema : Schema) (record : Submission) : Verdict String :=
  checkFrom schema [] [] record

def bypass {α : Type} (record : List (String × α)) : Verdict α :=
  { success := true, accepted := record, message := "Validation skipped (bypass enabled)" }

end Policy
end Roster
