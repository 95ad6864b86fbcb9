import Roster.Check.Kind
import Roster.Field.Catalog
import Roster.Schema.Basic
import Roster.Schema.Warning

/-!
# Assembling a schema

The schema of a store has the core fields, the standard fields that were chosen, the accepted
application fields and the system fields, in this order.  Overrides change attributes of the
built-in fields; options are cleaned at the end.
-/

namespace Roster
namespace Assembly

/-- A result with the warnings that came up. -/
abbrev Noted (α : Type) := α × List SchemaWarning

/-- The names in a list written as text, between commas and semicolons. -/
def splitNames (s : String) : List String :=
  let unified := (Text.trim s.toList).map fun c => if c == ';' then ',' else c
  (((Text.cut ',' unified).map Text.trim).filter (!·.isEmpty)).map String.ofList

/-! ## Standard fields -/

/-- The standard fields that a selection asks for, `none` for all of them. -/
def requestedFields (selection : Option Value) : Except ValueFault (Option (List String)) :=
  match selection with
  | none | some .null => .ok none
  | some (.str s) =>
      if ["", "all"].contains (Text.lower (Text.strip s)) then .ok none
      else .ok (some ((splitNames s).map Text.lower))
  | some v => do
      let items ← v.items
      .ok (some (items.map fun item => Text.lower (Text.strip item.text)))

/-- The chosen standard fields in catalog order; other names are passed over. -/
def standardFields (selection : Option Value) : Except ValueFault (Noted (List String)) := do
  match ← requestedFields selection with
  | none => .ok (Catalog.standardFields, [])
  | some requested =>
      let strange := requested.filter (!Catalog.standardFields.contains ·)
      .ok (Catalog.standardFields.filter (requested.contains ·),
        strange.map .nonStandardField)

/-! ## Overrides -/

/-- Attributes that no override can change, apart from the name that selects the field. -/
def protectedAttributes : List String := ["field_name", "category"]

/-- A definition while an override is applied, with the problems so far. -/
structure Draft where
  definition : Definition
  problems : List (String × AttributeProblem)

def applyAttribute (draft : Draft) (entry : String × Value) : Except ValueFault Draft :=
  let (name, v) := entry
  let note (problem : AttributeProblem) : Draft :=
    { draft with problems := draft.problems ++ [(name, problem)] }
  if name == "field_name" then .ok draft
  else if protectedAttributes.contains name then .ok (note .protectedAttribute)
  else
    match Attribute.ofName? name with
    | none =>
        .ok { draft with
          definition.extras := Entries.set draft.definition.extras name v }
    | some .validateAs =>
        if (ValidatorKind.ofValue? v).isSome then
          .ok { draft with definition.validateAs := v }
        else
          -- reported like the others, but the field falls back to text
          .ok { note (.unknownValidator v) with
            definition := { draft.definition with validateAs := .str ValidatorKind.text.label } }
    | some a =>
        match draft.definition.assign a v with
        | .ok definition => .ok { draft with definition }
        | .error fault =>
            -- only a value of the wrong form is passed over; other faults end the setup
            if fault.isBadValue then .ok (note (.invalidValue v)) else .error fault

/-- A new kind brings its validator, unless the override names one. -/
def followKind (override_ : Entries) (d : Definition) : Definition :=
  if Entries.has override_ "type" && !Entries.has override_ "validate_as"
      && (ValidatorKind.ofValue? d.kind).isSome then
    { d with validateAs := d.kind }
  else d

/-- A field that becomes required must also be valid, unless the override says otherwise. -/
def followRequired (override_ : Entries) (d : Definition) : Definition :=
  if Entries.has override_ "required" && d.required && !Entries.has override_ "must_validate" then
    { d with mustValidate := true }
  else d

/-- Apply the attributes of an override to the definition of a field. -/
def overrideDefinition (name : String) (override_ : Entries) (d : Definition) :
    Except ValueFault (Noted Definition) := do
  let draft ← override_.foldlM applyAttribute ⟨d, []⟩
  let definition := followRequired override_ (followKind override_ draft.definition)
  let sorted := draft.problems.mergeSort fun a b => a.1 ≤ b.1
  .ok (definition, if sorted.isEmpty then [] else [.overrideProblems name sorted])

def applyOverride (isProtected : Value → Bool) (definitions : List (String × Definition))
    (v : Value) : Except ValueFault (Noted (List (String × Definition))) :=
  match v with
  | .map override_ =>
      let name := (override_.lookup "field_name").getD .null
      if !name.isGiven then .ok (definitions, [.overrideWithoutName])
      else do
        let name ← name.asKey
        if isProtected name then .ok (definitions, [.overrideOfProtected name])
        else
          match name.text?, name.text?.bind (definitions.lookup ·) with
          | some key, some d => do
              let (d, warnings) ← overrideDefinition key override_ d
              .ok (Entries.set definitions key d, warnings)
          | _, _ => .ok (definitions, [.overrideOfUnknown name])
  | v => .ok (definitions, [.overrideNotMap v.kindName])

def applyOverrides (isProtected : Value → Bool) :
    List (String × Definition) → List Value → Except ValueFault (Noted (List (String × Definition)))
  | definitions, [] => .ok (definitions, [])
  | definitions, v :: rest => do
      let (definitions, warnings) ← applyOverride isProtected definitions v
      let (definitions, more) ← applyOverrides isProtected definitions rest
      .ok (definitions, warnings ++ more)

/-! ## Application fields -/

/-- A field that is given by its name alone. -/
def plainField (name : String) : Definition where
  fieldName := .str name
  validateAs := .str ValidatorKind.text.label
  label := labelize name

/-- Attributes that an application field does not keep as supplied. -/
def renewedAttributes : List String := ["field_name", "label", "category"]

/-- The attributes of an application field with everything that is not supplied filled in. -/
def completeEntries (name : String) (entry : Entries) : Except ValueFault Entries := do
  let kept := entry.filter fun e => !renewedAttributes.contains e.1
  let label := (entry.lookup "label").getD .null
  let named := kept ++ [("field_name", .str name), ("category", .str "app"),
    ("label", if label.isGiven then label else .str (labelize name))]
  let typed := if Entries.has named "type" then named else named ++ [("type", .str "text")]
  let flagged :=
    if Entries.has typed "required" then typed else typed ++ [("required", .bool false)]
  -- a null value that is supplied as null counts as not supplied
  match (flagged.lookup "null_value").getD .null with
  | .null => do
      let nullValue ← FieldKind.nullValueOf ((flagged.lookup "type").getD .null)
      .ok (Entries.set flagged "null_value" (.str nullValue))
  | _ => .ok flagged

/-- The definition of an application field, or why it is passed over. -/
def appDefinition (name : String) (entry : Entries) :
    Except ValueFault (Except SchemaWarning Definition) := do
  let complete ← completeEntries name entry
  match Definition.ofEntries complete with
  | .ok d => .ok (.ok d)
  | .error fault =>
      if fault.isBadValue then .ok (.error (.invalidDefinition name fault)) else .error fault

/-- The name that an entry gives, if it is of a kind that can give one. -/
def entryName? : Value → Option String
  | .map entry =>
      let name := (entry.lookup "field_name").getD .null
      some (if name.isGiven then Text.strip name.text else "")
  | .str s => some (Text.strip s)
  | _ => none

/-- The field that an entry adds beside the names already taken, or why it is passed over. -/
def appField (taken : List String) (v : Value) :
    Except ValueFault (Except SchemaWarning (String × Definition)) :=
  match entryName? v with
  | none => .ok (.error (.unsupportedEntry v))
  | some name =>
      if name == "" then .ok (.error .entryWithoutName)
      else if Catalog.reservedFields.contains name then .ok (.error (.nameInUse name))
      else if taken.contains name then .ok (.error (.duplicateName name))
      else
        match v with
        | .map entry => (appDefinition name entry).map fun r => r.map fun d => (name, d)
        | _ => .ok (.ok (name, plainField name))

/-- Application fields in order; each accepted name is taken for the entries behind it. -/
def appFields : (taken : List String) → List Value →
    Except ValueFault (Noted (List (String × Definition)))
  | _, [] => .ok ([], [])
  | taken, v :: rest => do
      match ← appField taken v with
      | .error warning =>
          let (more, warnings) ← appFields taken rest
          .ok (more, warning :: warnings)
      | .ok field =>
          let (more, warnings) ← appFields (field.1 :: taken) rest
          .ok (field :: more, warnings)

def appEntries (v : Value) : Except ValueFault (List Value) :=
  if !v.isGiven then .ok []
  else
    match v with
    | .str s => .ok ((splitNames s).map fun name => .str (Text.lower name))
    | v => v.items

/-! ## The whole schema -/

/-- The kind or the validator of the field is the choice among options. -/
def isChoice (d : Definition) : Bool :=
  d.kind == .str ValidatorKind.enum.label || d.validateAs == .str ValidatorKind.enum.label

/-- First marked option without its mark, else nothing. -/
def markedDefault (options : List String) : String :=
  ((options.find? isMarked).map stripMarker).getD ""

/-- Clean the options of a choice and take its default from the mark if none is set. -/
def finishOptions (d : Definition) : Definition :=
  if isChoice d && !d.options.isEmpty then
    { d with
      cleanOptions := d.options.map stripMarker
      default := some (match d.default with
        | none | some "" => markedDefault d.options
        | some default => default) }
  else d

/-- The names that no override reaches: the built-in ones and those of the setup. -/
def protection (v : Value) : Except ValueFault (Value → Bool) := do
  let names ← if v.isGiven then (← v.items).mapM Value.asKey else .ok []
  .ok fun name =>
    Catalog.protectedFields.any (fun p => name == .str p) || names.any (Value.sameScalar name ·)

end Assembly

/-- The schema of a setup, with warnings for all that was passed over. -/
def Schema.assemble (config : Value) : Except ValueFault (Schema × List SchemaWarning) := do
  let entries ← config.entries
  let setting (name : String) : Value := (entries.lookup name).getD .null
  let isProtected ← Assembly.protection (setting "protected_fields")
  let (standard, selectionWarnings) ← Assembly.standardFields (entries.lookup "include_standard_fields")
  let builtIn := Catalog.core ++ Catalog.system
    ++ Catalog.standard.filter fun field => standard.contains field.1
  let overrides := setting "field_overrides"
  let overrideList ← if overrides.isGiven then overrides.items else .ok []
  -- overrides see the built-in fields only, as the application fields come later
  let (overridden, overrideWarnings) ← Assembly.applyOverrides isProtected builtIn overrideList
  let before := Catalog.coreFields ++ standard
  let (app, appWarnings) ← Assembly.appFields before (← Assembly.appEntries (setting "app_fields"))
  let definitions := (overridden ++ app).map fun (name, d) => (name, Assembly.finishOptions d)
  .ok (⟨before ++ app.map Prod.fst ++ Catalog.systemFields, definitions⟩,
    selectionWarnings ++ overrideWarnings ++ appWarnings)

end Roster
