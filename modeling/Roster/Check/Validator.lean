import Roster.Check.Grammar
import Roster.Check.Kind

/-!
# Checking one value

A validator accepts a value or says what is wrong with it, naming the field as messages do.
-/

namespace Roster

/-- Outcome of checking one value. -/
inductive FieldCheck where
  | accepted
  | rejected (message : String)
  deriving DecidableEq, Repr

namespace FieldCheck

def isAccepted : FieldCheck → Bool
  | .accepted => true
  | .rejected _ => false

/-- What is wrong with the value, nothing if it was accepted. -/
def message : FieldCheck → String
  | .accepted => ""
  | .rejected message => message

def ofBool (condition : Bool) (message : String) : FieldCheck :=
  if condition then .accepted else .rejected message

end FieldCheck

namespace ValidatorKind

/-- The value has the form that the validator asks for, under the settings of the field. -/
def accepts (kind : ValidatorKind) (d : Definition) (value : String) : Bool :=
  let cs := value.toList
  match kind with
  | .text =>
      match d.maxLength with
      | none => true
      | some limit => limit == 0 || (cs.length : Int) ≤ limit
  | .email => Grammar.isEmail cs
  | .phone => Grammar.isPhone cs
  | .date => Grammar.isDay cs
  | .timestamp => Grammar.isMoment cs
  | .boolean => value == "0" || value == "1"
  | .integer => Grammar.isInteger cs
  | .enum => d.cleanOptions.contains value
  | .moniker => Grammar.isMoniker cs
  | .name => Grammar.isName cs

/-- What to say of a value that is not accepted; `shown` is the name of the field. -/
def complaint (kind : ValidatorKind) (d : Definition) (shown value : String) : String :=
  match kind with
  | .text =>
      shown ++ " must not exceed maximum length of " ++ toString (d.maxLength.getD 0) ++ " characters"
  | .email => shown ++ " must be a valid email address"
  | .phone =>
      shown ++ " must be a valid phone number of at least " ++ toString Grammar.phoneMinLength
        ++ " characters"
  | .date => "Invalid date format for " ++ shown ++ " (expected YYYY-MM-DD)"
  | .timestamp => "Invalid timestamp format for " ++ shown ++ " (expected YYYY-MM-DD HH:MM:SS)"
  | .boolean => "Invalid value '" ++ value ++ "' for boolean " ++ shown ++ " (use 1 or 0)"
  | .integer => shown ++ " must be a whole number"
  | .enum => shown ++ " must be one of: " ++ String.intercalate ", " d.cleanOptions
  | .moniker => shown ++ " is required as 2-24 alphanumeric characters, no spaces"
  | .name => shown ++ " contains invalid characters"

/-- Check the value of the field `name`. -/
def check (kind : ValidatorKind) (d : Definition) (name value : String) : FieldCheck :=
  .ofBool (kind.accepts d value) (kind.complaint d (d.shownName name) value)

/-- A check accepts exactly the values of the right form. -/
theorem check_eq_accepted_iff (kind : ValidatorKind) (d : Definition) (name value : String) :
    kind.check d name value = .accepted ↔ kind.accepts d value = true := by
  unfold check FieldCheck.ofBool
  split <;> simp_all

end ValidatorKind
end Roster
