import Roster.Fault
import Roster.Schema.Basic
import Roster.Value.Pairs

/-!
# Manifests

A manifest is what a setup hands over to every later use of a store: the schema, the backend, and
what the backend needs to reach its storage again.
-/

namespace Roster

/-- What is known of a store that was set up. -/
structure Manifest where
  backend : String
  state : Entries
  schema : Schema
  generated : String := ""
  version : String := "1.0"
  initialized : Bool := true
  options : Entries := []
  deriving DecidableEq, Repr

namespace Manifest

/-- Sections that no stored manifest can be without. -/
def requiredSections : List String := ["backend", "backend_state", "fields", "field_definitions"]

def toEntries (m : Manifest) : Except ValueFault Entries := do
  let schema ← m.schema.toEntries
  .ok ([("version", .str m.version), ("generated", .str m.generated),
    ("backend", .str m.backend), ("backend_state", .map m.state),
    ("storage_initialized", .bool m.initialized), ("options", .map m.options)] ++ schema)

/-- A text in a section, or another one if nothing is given there. -/
def textOr (section_ : Option Value) (other : String) : String :=
  match section_ with
  | some v => if v.isGiven then v.text else other
  | none => other

/-- The manifest that a map gives; every field must have a definition. -/
def ofEntries (sections : Entries) : Except Fault Manifest := do
  let section_ (key : String) : Value := (sections.lookup key).getD .null
  let missing := requiredSections.filter fun key => !(section_ key).isGiven
  if !missing.isEmpty then throw (.configuration (.incomplete missing))
  let schema ← Schema.ofValue (.map sections)
  let undefined ← schema.undefined (← Schema.readFields (.map sections))
  if !undefined.isEmpty then
    throw (.configuration (.inconsistent (undefined.map Value.text)))
  let state ← (section_ "backend_state").pairs
  let options := section_ "options"
  let options ← if options.isGiven then options.pairs else pure []
  return {
    backend := (section_ "backend").text
    state
    schema
    generated := textOr (sections.lookup "generated") ""
    version := textOr (sections.lookup "version") "1.0"
    initialized := (sections.lookup "storage_initialized").elim true Value.isGiven
    options }

def ofValue (v : Value) : Except Fault Manifest := do
  ofEntries (← v.entries)

end Manifest
end Roster
