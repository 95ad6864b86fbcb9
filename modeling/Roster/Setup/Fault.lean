import Roster.Backend
import Roster.Value.Display

/-!
# What is wrong with a configuration

A setup is refused with all its issues at once; a stored configuration is refused for the first
thing that stops it from being read.
-/

namespace Roster

/-- One thing that is wrong with a setup. -/
inductive SetupIssue where
  | missing (setting : String)
  | notText (setting : String) (v : Value)
  | emptyText (setting : String)
  | notAmong (setting : String) (v : Value) (choices : List String)
  | noShape (setting : String) (v : Value)
  deriving DecidableEq, Repr

namespace SetupIssue

def message : SetupIssue → String
  | .missing setting => Text.quoted setting ++ " is a required property"
  | .notText setting v => setting ++ ": " ++ v.shown ++ " is not of type 'string'"
  | .emptyText setting => setting ++ ": '' should be non-empty"
  | .notAmong setting v choices =>
      setting ++ ": " ++ v.shown ++ " is not one of " ++ (Value.list (choices.map .str)).shown
  | .noShape setting v =>
      setting ++ ": " ++ v.shown ++ " is not valid under any of the given schemas"

end SetupIssue

/-- Why a configuration is refused. -/
inductive ConfigurationFault where
  | setupNotMap (kind : String)
  | invalidSetup (issues : List SetupIssue)
  | unknownBackend (v : Value)
  | incomplete (sections : List String)
  | inconsistent (fields : List String)
  | fileMissing (path : String)
  | unreadable (path cause : String)
  | fileNotMap (path : String)
  deriving DecidableEq, Repr

namespace ConfigurationFault

/-- Wording of a refusal without its issues. -/
def summary : ConfigurationFault → String
  | .setupNotMap kind => "Setup configuration must be a mapping, got " ++ kind
  | .invalidSetup _ => "Invalid setup configuration"
  | .unknownBackend v =>
      "Invalid backend '" ++ v.text ++ "' (must be one of: "
        ++ String.intercalate ", " (Backend.all.map Backend.name) ++ ")"
  | .incomplete _ => "Schema record is incomplete"
  | .inconsistent _ => "Schema record is inconsistent"
  | .fileMissing path => "Configuration file not found: " ++ path
  | .unreadable path cause => "Cannot read configuration file " ++ path ++ ": " ++ cause
  | .fileNotMap path => "Configuration file " ++ path ++ " does not hold a mapping"

def issues : ConfigurationFault → List String
  | .invalidSetup issues => issues.map SetupIssue.message
  | .incomplete sections => sections.map fun key => "missing '" ++ key ++ "'"
  | .inconsistent fields => fields.map fun name => "field '" ++ name ++ "' has no definition"
  | _ => []

/-- Wording of a refusal with its issues below it. -/
def message (fault : ConfigurationFault) : String :=
  if fault.issues.isEmpty then fault.summary
  else fault.summary ++ ":\n  - " ++ String.intercalate "\n  - " fault.issues

end ConfigurationFault
end Roster
