import Roster.Manifest.Document
import Roster.Storage.Path
import Roster.Text.Segments
import Roster.Yaml.Printer

/-!
# Reference copies of manifests

Beside a manifest stands a copy for people to read, which is never read back: a YAML document with
the fields in groups, below a box of comment lines.
-/

namespace Roster
namespace Reference

/-- Name of the file that holds the reference copy. -/
def fileName : String := "users-config.yaml"

/-- Titles of the groups of fields by category, in order. -/
def titles : List (String × String) := [
  ("core", "Core Fields"), ("standard", "Standard Fields"), ("system", "System Fields"),
  ("app", "Application Fields")]

def entry (d : Definition) : Entries :=
  let when_ (condition : Bool) (key : String) (v : Value) : Entries :=
    if condition then [(key, v)] else []
  [("field_name", d.fieldName), ("type", d.kind), ("required", .bool d.required)]
    ++ when_ (d.validateAs.isGiven && !(d.validateAs.sameScalar d.kind || d.validateAs == d.kind))
      "validate_as" d.validateAs
    ++ [("default", .str (d.default.getD ""))]
    ++ when_ (!d.options.isEmpty) "options" (Attribute.ofOptions d.options)
    ++ when_ (d.description != "") "description" (.str d.description)
    ++ when_ (d.maxLength.any (· != 0)) "max_length" (Attribute.ofLength d.maxLength)
    ++ when_ d.mustValidate "must_validate" (.bool true)
    ++ [("null_value", .str d.nullValue)]

/-- The fields of each category that has some. -/
def groups (defined : List (String × Definition)) : Entries :=
  titles.filterMap fun (category, title) =>
    let entries := Entries.setAll [] ((defined.filter (·.2.category == .str category)).map
      fun (name, d) => (name, Value.map (entry d)))
    if entries.isEmpty then none else some (title, .map entries)

/-- The document about a manifest in a directory. -/
def content (m : Manifest) (directory : Path) : Except ValueFault Value := do
  let defined ← m.schema.defined
  .ok (.map [
    ("Configuration", .map [("Version", .str m.version), ("Backend", .str m.backend),
      ("Storage Directory", .str directory.text), ("Generated", .str m.generated)]),
    ("Field Definitions", .map (groups defined))])

def rule : String := String.ofList (List.replicate 79 '#')

/-- Comment lines on top of the document. -/
def header (directory : Path) : String :=
  String.intercalate "\n" [
    rule,
    "#  WARNING: This is a GENERATED file for reference ONLY",
    "#",
    "#  Editing this file will NOT affect your user store configuration.",
    "#",
    "#  This file is automatically generated from:",
    "#    " ++ Manifest.fileName,
    "#",
    "#  This file:",
    "#    " ++ (directory.child fileName).text,
    rule,
    "",
    ""]

/-- Say once per list of options what the mark on the default one means. -/
def noteMarker (body : String) : String :=
  String.ofList (Text.replaceAll "    options:\n".toList
    "    options:  # '*' designates the default option\n".toList body.toList)

/-- Text of the reference copy of a manifest in a directory. -/
def render (m : Manifest) (directory : Path) : Except ValueFault String := do
  .ok (header directory ++ noteMarker (Yaml.render (← content m directory)))

end Reference
end Roster
