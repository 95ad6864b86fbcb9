import Roster.Manifest.Reference
import Roster.Proofs.Schema.Segments
import Roster.Proofs.Schema.Storable
import Roster.Proofs.Yaml.Remarks

/-!
# Reference copies say what manifests say

The reference copy of a manifest has the setup of the store and, under a title for each category, the
fields of the category in the order of the schema.  Read as a document it gives these back, unless a
text or the path of the copy has characters that come to mean something else where they are put.
-/

namespace Roster
namespace Reference

/-!
## The document
-/

/-- The fields of a category in the order of the schema, each with what is told of it. -/
def fieldsOf (schema : Schema) (category : String) : Entries :=
  (schema.fields.filter fun name => Catalog.category name == category).map fun name =>
    (name, .map (entry (schema.definition name)))

/-- The fields of each category that has some under the title of the category. -/
def sections (schema : Schema) : Entries :=
  titles.filterMap fun (category, title) =>
    if (fieldsOf schema category).isEmpty then none
    else some (title, .map (fieldsOf schema category))

/-- What a reference copy says. -/
def document (m : Manifest) (directory : Path) : Entries :=
  [("Configuration", .map [("Version", .str m.version), ("Backend", .str m.backend),
      ("Storage Directory", .str directory.text), ("Generated", .str m.generated)]),
    ("Field Definitions", .map (sections m.schema))]

variable {config : Value} {schema : Schema} {warnings : List SchemaWarning} {d : Definition}

theorem category_of_assemble (h : Schema.assemble config = .ok (schema, warnings)) {name : String}
    (hname : name ∈ schema.fields) :
    (schema.definition name).category = .str (Catalog.category name) := by
  have hfield := Entries.mem_of_lookup ((Schema.assemble_sound h).get?_eq hname)
  exact congrArg Prod.snd (Schema.identity_of_assemble h _ hfield)

theorem nodup_fieldsOf (h : schema.fields.Nodup) (category : String) :
    (Entries.keys (fieldsOf schema category)).Nodup := by
  rw [Entries.keys, fieldsOf, List.map_map]
  exact (List.map_id _).symm ▸ h.filter _

theorem groups_of_assemble (h : Schema.assemble config = .ok (schema, warnings)) :
    groups (schema.fields.map fun name => (name, schema.definition name)) = sections schema := by
  have hsound := Schema.assemble_sound h
  refine List.filterMap_congr fun (category, title) _ => ?_
  have hchosen : (schema.fields.map fun name => (name, schema.definition name)).filter
      (fun field => field.2.category == .str category) =
      (schema.fields.filter fun name => Catalog.category name == category).map
        fun name => (name, schema.definition name) := by
    rw [List.filter_map]
    refine congrArg _ (List.filter_congr fun name hname => ?_)
    rw [Function.comp_apply, category_of_assemble h hname]
    exact Bool.eq_iff_iff.mpr (by simp)
  have hset : Entries.setAll [] (fieldsOf schema category) = fieldsOf schema category :=
    Entries.setAll_nil_of_nodup (nodup_fieldsOf hsound.nodup category)
  simp only [hchosen, List.map_map, Function.comp_def]
  rw [fieldsOf] at hset ⊢
  rw [hset]

theorem mem_sections_iff {schema : Schema} {title : String} {v : Value} :
    (title, v) ∈ sections schema ↔ ∃ category, (category, title) ∈ titles ∧
      fieldsOf schema category ≠ [] ∧ v = .map (fieldsOf schema category) := by
  rw [sections, List.mem_filterMap]
  constructor
  · rintro ⟨⟨category, title⟩, htitle, hsome⟩
    dsimp only at hsome
    split at hsome
    · cases hsome
    · rename_i hne
      cases hsome
      exact ⟨category, htitle, by simpa using hne, rfl⟩
  · rintro ⟨category, htitle, hne, rfl⟩
    exact ⟨(category, title), htitle, if_neg (by simpa using hne)⟩

theorem exists_section {name : String} (hname : name ∈ schema.fields) :
    ∃ title fields, (title, .map fields) ∈ sections schema ∧
      (name, .map (entry (schema.definition name))) ∈ fields := by
  have hcategory : ∃ title, (Catalog.category name, title) ∈ titles := by
    rw [Catalog.category]
    split
    · exact ⟨"Core Fields", by decide⟩
    · split
      · exact ⟨"Standard Fields", by decide⟩
      · split
        · exact ⟨"System Fields", by decide⟩
        · exact ⟨"Application Fields", by decide⟩
  rcases hcategory with ⟨title, htitle⟩
  have hfield : (name, .map (entry (schema.definition name))) ∈
      fieldsOf schema (Catalog.category name) :=
    List.mem_map.mpr ⟨name, List.mem_filter.mpr ⟨hname, beq_self_eq_true _⟩, rfl⟩
  exact ⟨title, _, mem_sections_iff.mpr ⟨_, htitle, List.ne_nil_of_mem hfield, rfl⟩, hfield⟩

/-!
## It can be written
-/

/-- The keys of an entry are these, some of them not always. -/
theorem keys_entry_sublist (d : Definition) : (Entries.keys (entry d)).Sublist
    ["field_name", "type", "required", "validate_as", "default", "options", "description",
      "max_length", "must_validate", "null_value"] := by
  have hwhen : ∀ (condition : Bool) (key : String) (v : Value),
      (Entries.keys (if condition then [(key, v)] else [])).Sublist [key] := by
    intro condition key v
    cases condition with
    | true => exact List.Sublist.refl _
    | false => exact List.nil_sublist _
  simp only [entry, Entries.keys, List.map_append] at hwhen ⊢
  exact ((((((((List.Sublist.refl ["field_name", "type", "required"]).append
    (hwhen _ _ _)).append (List.Sublist.refl ["default"])).append (hwhen _ _ _)).append
    (hwhen _ _ _)).append (hwhen _ _ _)).append (hwhen _ _ _)).append (List.Sublist.refl ["null_value"]))

theorem isDocument_entry (h : d.IsStorable) : (Value.map (entry d)).IsDocument := by
  have hwhen : ∀ (condition : Bool) (key : String) {v : Value}, v.IsDocument →
      ∀ e ∈ (if condition then [(key, v)] else []), e.2.IsDocument := by
    intro condition key v hv
    cases condition with
    | true => exact List.forall_mem_singleton.mpr hv
    | false => exact List.forall_mem_nil _
  refine .map ((keys_entry_sublist d).nodup (by decide)) ?_
  simp only [entry, List.forall_mem_append]
  refine ⟨⟨⟨⟨⟨⟨⟨?_, hwhen _ _ h.validateAs⟩, ?_⟩, hwhen _ _ (Definition.isDocument_options _)⟩,
    hwhen _ _ (.str _)⟩, hwhen _ _ (Definition.isDocument_length h.maxLength)⟩,
    hwhen _ _ (.bool _)⟩, List.forall_mem_singleton.mpr (.str _)⟩
  · simp only [List.forall_mem_cons]
    exact ⟨h.fieldName, h.kind, .bool _, List.forall_mem_nil _⟩
  · exact List.forall_mem_singleton.mpr (.str _)

theorem nodup_sections (schema : Schema) : (Entries.keys (sections schema)).Nodup := by
  have hsublist : ∀ groups : List (String × String),
      (Entries.keys (groups.filterMap fun (category, title) =>
        if (fieldsOf schema category).isEmpty then none
        else some (title, Value.map (fieldsOf schema category)))).Sublist (groups.map Prod.snd) := by
    intro groups
    induction groups with
    | nil => exact List.Sublist.slnil
    | cons group rest ih =>
        rw [List.filterMap_cons, List.map_cons]
        split
        · exact ih.cons _
        · rename_i hsome
          dsimp only at hsome
          split at hsome
          · cases hsome
          · cases hsome
            exact ih.cons_cons _
  exact (hsublist titles).nodup (by decide)

/-- The document of a schema that is set up by a document can be written. -/
theorem isDocument_document (hconfig : config.IsDocument) {m : Manifest}
    (h : Schema.assemble config = .ok (m.schema, warnings)) (directory : Path) :
    (Value.map (document m directory)).IsDocument := by
  have hsound := Schema.assemble_sound h
  have hentry : ∀ name ∈ m.schema.fields,
      (Value.map (entry (m.schema.definition name))).IsDocument := by
    intro name hname
    exact isDocument_entry (Schema.isStorable_of_assemble hconfig h _
      (Entries.mem_of_lookup (hsound.get?_eq hname)))
  have hsections : ∀ section_ ∈ sections m.schema, section_.2.IsDocument := by
    rintro ⟨title, v⟩ hsection
    rcases mem_sections_iff.mp hsection with ⟨category, -, -, rfl⟩
    refine .map (nodup_fieldsOf hsound.nodup category) fun field hfield => ?_
    rcases List.mem_map.mp hfield with ⟨name, hname, rfl⟩
    exact hentry name (List.mem_filter.mp hname).1
  refine .map (by simp [document, Entries.keys]) ?_
  simp only [document, List.forall_mem_cons]
  refine ⟨.map (by simp [Entries.keys]) ?_, .map (nodup_sections m.schema) hsections, List.forall_mem_nil _⟩
  simp only [List.forall_mem_cons]
  exact ⟨.str _, .str _, .str _, .str _, List.forall_mem_nil _⟩

/-!
## The text
-/

/-- The comment lines on top, an empty one at the end. -/
def headerLines (directory : Path) : List (List Char) :=
  [rule, "#  WARNING: This is a GENERATED file for reference ONLY", "#",
    "#  Editing this file will NOT affect your user store configuration.", "#",
    "#  This file is automatically generated from:", "#    " ++ Manifest.fileName, "#",
    "#  This file:", "#    " ++ (directory.child fileName).text, rule, ""].map String.toList

theorem toList_header (directory : Path) :
    (header directory).toList = Yaml.Lexer.heading (headerLines directory) := by
  have hjoin : ∀ lines : List String, (String.intercalate "\n" (lines ++ [""])).toList =
      Yaml.Lexer.heading (lines.map String.toList) := by
    intro lines
    induction lines with
    | nil => rfl
    | cons line rest ih =>
        rcases List.exists_cons_of_ne_nil (List.append_ne_nil_of_right_ne_nil rest (List.cons_ne_nil "" []))
          with ⟨next, more, hmore⟩
        rw [List.cons_append, hmore, String.intercalate_cons_cons, ← hmore, String.toList_append,
          String.toList_append, ih]
        simp [Yaml.Lexer.heading]
  exact hjoin [_, _, _, _, _, _, _, _, _, _, _, _]

theorem isCommentLine_header {directory : Path}
    (hpath : ∀ ch ∈ (directory.child fileName).text.toList, Yaml.IsRemarkable ch) :
    ∀ line ∈ headerLines directory, Yaml.IsCommentLine line := by
  have hcomment : Yaml.IsCommentLine ("#    " ++ (directory.child fileName).text).toList := by
    rw [String.toList_append]
    exact ⟨Or.inr rfl, List.forall_mem_append.mpr ⟨by decide, hpath⟩⟩
  simp only [headerLines, List.map_cons, List.map_nil, List.forall_mem_cons]
  exact ⟨by decide, by decide, by decide, by decide, by decide, by decide, by decide, by decide,
    by decide, hcomment, by decide, by decide, nofun⟩

/-!
## What it says when it is read
-/

/-- Nothing in the copy comes to mean something else where it is put: texts and keys are safe, keys
are recognised, values leave room in their lines, and the path of the copy fits in a comment. -/
structure IsLegible (m : Manifest) (directory : Path) : Prop where
  parts : Yaml.EachPart (fun k => Yaml.KeyFits k ∧ Yaml.IsSafe k) (Yaml.OnText Yaml.IsSafe)
    (.map (document m directory))
  room : Yaml.nesting (.map (document m directory)) ≤ 36
  path : ∀ ch ∈ (directory.child fileName).text.toList, Yaml.IsRemarkable ch

theorem content_of_assemble {m : Manifest} (h : Schema.assemble config = .ok (m.schema, warnings))
    (directory : Path) : content m directory = .ok (.map (document m directory)) := by
  rw [content, (Schema.assemble_sound h).defined_eq]
  simp only [bind, Except.bind, groups_of_assemble h]
  rfl

theorem noteMarker_eq (body : String) : noteMarker body = String.ofList
    (Text.replaceAll (Yaml.lineMark ++ ['\n']) (Yaml.lineMark ++ Yaml.remark ++ ['\n']) body.toList) := by
  rw [noteMarker]
  rfl

/-- The reference copy of a schema that comes out of a setup can always be written, it tells of every
field, and it is read as the document from which it was made if nothing in it comes to mean something
else. -/
theorem loaded_of_assemble (hconfig : config.IsDocument) {m : Manifest}
    (h : Schema.assemble config = .ok (m.schema, warnings)) (directory : Path) :
    content m directory = .ok (.map (document m directory)) ∧
      (∀ name ∈ m.schema.fields, ∃ title fields, (title, .map fields) ∈ sections m.schema ∧
        (name, .map (entry (m.schema.definition name))) ∈ fields) ∧
      ∃ text, render m directory = .ok text ∧ (IsLegible m directory →
        Yaml.dataOf text.toList = .ok (some (.ofValue (.map (document m directory))))) := by
  have hcontent := content_of_assemble h directory
  refine ⟨hcontent, fun name => exists_section,
    header directory ++ noteMarker (Yaml.render (.map (document m directory))), ?_, fun hlegible => ?_⟩
  · rw [render, hcontent]
    rfl
  · rw [String.toList_append, toList_header, noteMarker_eq, String.toList_ofList]
    exact Yaml.dataOf_remarked (List.cons_ne_nil _ _) (isDocument_document hconfig h directory)
      hlegible.parts hlegible.room (isCommentLine_header hlegible.path)

/-- A setup with a field whose texts all need quotes, with options among them. -/
def shirtSetup : Value :=
  .map [("include_standard_fields", .list [.str "email"]),
    ("app_fields", .list [
      .map [("field_name", .str "shirt: size"), ("type", .str "enum"),
        ("description", .str "One of the options: small or large\n# each for 0.5 kg"),
        ("options", .list [.str "* small", .str "it's large"]), ("default", .str "~"),
        ("required", .bool true), ("max_length", .int 12)],
      .map [("field_name", .str "options"), ("null_value", .str ""),
        ("type", .list [.int 1, .map [("options", .list [.null])]])]])]

def shirtManifest : Manifest where
  backend := "yaml"
  state := []
  schema := Schema.ofSetup shirtSetup
  generated := "2024-02-29T12:00:00"

/-- A directory whose name needs quotes. -/
def shirtDirectory : Path := Path.ofText "/srv/people: all #1/"

theorem isDocument_shirtSetup : shirtSetup.IsDocument := by
  refine .map (by decide) ?_
  simp only [List.forall_mem_cons, List.not_mem_nil, false_imp_iff, implies_true, and_true]
  refine ⟨.list ?_, .list ?_⟩
  · simpa using Value.IsDocument.str _
  · simp only [List.forall_mem_cons, List.not_mem_nil, false_imp_iff, implies_true, and_true]
    refine ⟨.map (by decide) ?_, .map (by decide) ?_⟩
    · simp only [List.forall_mem_cons, List.not_mem_nil, false_imp_iff, implies_true, and_true]
      refine ⟨.str _, .str _, .str _, .list ?_, .str _, .bool _, .int (by decide)⟩
      simpa using ⟨Value.IsDocument.str _, Value.IsDocument.str _⟩
    · simp only [List.forall_mem_cons, List.not_mem_nil, false_imp_iff, implies_true, and_true]
      refine ⟨.str _, .str _, .list ?_⟩
      have hinner : (Value.list [.null]).IsDocument := .list (by simpa using Value.IsDocument.null)
      have hmap : (Value.map [("options", .list [.null])]).IsDocument :=
        .map (by decide) (by simpa using hinner)
      simpa using ⟨Value.IsDocument.int (by decide), hmap⟩

theorem isLegible_shirtManifest : IsLegible shirtManifest shirtDirectory where
  parts := by
    have hparts : Yaml.EachPart (fun k => k.length ≤ 102 ∧ Yaml.IsSafe k) (Yaml.OnText Yaml.IsSafe)
        (.map (document shirtManifest shirtDirectory)) := by
      decide +kernel
    exact hparts.imp (fun _ hk => ⟨Yaml.keyFits_of_length hk.1, hk.2⟩) fun _ hv => hv
  room := by decide +kernel
  path := by decide +kernel

theorem loaded_of_assemble_of_shirts : IsLegible shirtManifest shirtDirectory ∧
    ∃ text, render shirtManifest shirtDirectory = .ok text ∧
      Yaml.dataOf text.toList =
        .ok (some (.ofValue (.map (document shirtManifest shirtDirectory)))) := by
  have hreturns : (Schema.assemble shirtSetup).isOk = true := by decide +kernel
  rcases Schema.assemble_ofSetup hreturns with ⟨warnings, hassemble⟩
  rcases loaded_of_assemble isDocument_shirtSetup (m := shirtManifest) hassemble shirtDirectory with
    ⟨-, -, text, hrender, hloaded⟩
  exact ⟨isLegible_shirtManifest, text, hrender, hloaded isLegible_shirtManifest⟩

end Reference
end Roster
