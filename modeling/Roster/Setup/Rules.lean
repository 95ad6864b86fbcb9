import Roster.Setup.Fault
import Roster.Setup.Shape
import Roster.Text.Blank
import Roster.Text.Case

/-!
# Rules for a setup

A setup names a directory and a backend and may choose fields.  All issues are reported: missing
settings first, then the settings in the order of their names.
-/

namespace Roster
namespace Setup

def requiredSettings : List String := ["storage_dir", "backend"]

def backendChoices : List String := ["database", "file", "yaml", "DATABASE", "FILE", "YAML"]

def formatChoices : List String := ["tsv", "csv", "TSV", "CSV"]

/-- A flag, however it is written. -/
def flagShape : Shape := .oneOf [.truth, .whole, .text]

/-- A text, a number or nothing. -/
def plainShape : Shape := .oneOf [.text, .number, .nothing]

/-- A greatest length or none. -/
def lengthShape : Shape := .oneOf [.atLeast 1, .nothing]

def appFieldShape : Shape := .object [
  ("field_name", .identifier), ("type", .text), ("validate_as", .text), ("label", .text),
  ("description", .text), ("required", flagShape), ("must_validate", flagShape),
  ("options", .listOf .text), ("default", plainShape), ("null_value", plainShape),
  ("max_length", lengthShape)]

def overrideShape : Shape := .object [
  ("field_name", .text), ("options", .listOf .text), ("max_length", lengthShape)]

/-- What a setting is checked for. -/
inductive Rule where
  | filledText
  | choice (choices : List String)
  | shape (shape : Shape)

/-- Issues of the value of a setting under its rule. -/
def Rule.issues (setting : String) (v : Value) : Rule → List SetupIssue
  | .filledText =>
      match v with
      | .str "" => [.emptyText setting]
      | .str _ => []
      | v => [.notText setting v]
  | .choice choices =>
      (if v.text?.isSome then [] else [.notText setting v])
        ++ (if v.text?.any (choices.contains ·) then [] else [.notAmong setting v choices])
  | .shape wanted => if wanted.accepts v then [] else [.noShape setting v]

/-- Rules by setting, in the order of the names. -/
def rules : List (String × Rule) := [
  ("app_fields", .shape (.oneOf [.text, .listOf (.oneOf [.filledText, appFieldShape]), .nothing])),
  ("backend", .choice backendChoices),
  ("field_overrides", .shape (.oneOf [.listOf overrideShape, .nothing])),
  ("file_format", .choice formatChoices),
  ("include_standard_fields", .shape (.oneOf [.text, .listOf .text, .nothing])),
  ("protected_fields", .shape (.oneOf [.listOf .text, .nothing])),
  ("storage_dir", .filledText)]

def issues (settings : Entries) : List SetupIssue :=
  (requiredSettings.filter (!Entries.has settings ·)).map .missing
    ++ rules.flatMap fun (setting, rule) =>
      (settings.lookup setting).elim [] fun v => rule.issues setting v

/-- The settings of a setup that has no issues. -/
def check (config : Value) : Except ConfigurationFault Entries :=
  match config with
  | .map settings =>
      let found := issues settings
      if found.isEmpty then .ok settings else .error (.invalidSetup found)
  | v => .error (.setupNotMap v.kindName)

/-- The backend that a value names, whatever its case and the blanks around it. -/
def backend (v : Value) : Except ConfigurationFault Backend :=
  let name := if v.isGiven then Text.lower (Text.strip v.text) else ""
  (Backend.ofName? name).elim (.error (.unknownBackend v)) .ok

end Setup
end Roster
