import Roster.Manifest.Document
import Roster.Proofs.Json.LineEnds
import Roster.Proofs.Json.RoundTrip
import Roster.Proofs.Schema.Storable

/-!
# Manifests are read back

A manifest that was written down is read back with all its sections.  Its schema has the same
fields, and each definition comes back as definitions do.
-/

namespace Roster

/-!
## Schemas
-/

namespace Schema

/-- Every definition can be written to a document. -/
def IsStorable (schema : Schema) : Prop :=
  ∀ field ∈ schema.definitions, field.2.IsStorable

/-- The schema as it is read again. -/
def reread (schema : Schema) : Schema where
  fields := schema.fields
  definitions := schema.fields.map fun name => (name, (schema.definition name).reread)

/-- The sections of a schema in which every field is defined. -/
def sections (schema : Schema) : Entries :=
  [("fields", .list (schema.fields.map .str)),
    ("field_definitions",
      .map (schema.fields.map fun name => (name, (schema.definition name).toValue)))]

theorem toEntries_eq {schema : Schema} (h : schema.Sound) :
    schema.toEntries = .ok schema.sections := by
  have hkeys : Entries.keys (schema.fields.map fun name =>
      (name, (schema.definition name).toValue)) = schema.fields := by
    rw [Entries.keys, List.map_map]
    exact List.map_id _
  rw [toEntries, h.defined_eq]
  simp only [bind, Except.bind, List.map_map, Function.comp_def]
  rw [Entries.setAll_nil_of_nodup (hkeys.symm ▸ h.nodup)]
  rfl

theorem IsStorable.definition {schema : Schema} (h : schema.IsStorable) (hsound : schema.Sound)
    {name : String} (hname : name ∈ schema.fields) : (schema.definition name).IsStorable :=
  h (name, schema.definition name) (Entries.mem_of_lookup (hsound.get?_eq hname))

theorem IsStorable.isDocument {schema : Schema} (h : schema.IsStorable) (hsound : schema.Sound) :
    ∀ section_ ∈ schema.sections, section_.2.IsDocument := by
  simp only [sections, List.forall_mem_cons]
  refine ⟨.list fun v hv => ?_, .map ?_ fun entry hentry => ?_, fun section_ hnone => nomatch hnone⟩
  · rcases List.mem_map.mp hv with ⟨name, -, rfl⟩
    exact .str name
  · rw [Entries.keys, List.map_map]
    exact (List.map_id schema.fields).symm ▸ hsound.nodup
  · rcases List.mem_map.mp hentry with ⟨name, hname, rfl⟩
    exact (h.definition hsound hname).isDocument

theorem readFields_eq {schema : Schema} (hsound : schema.Sound) {entries : Entries}
    (hentries : ∀ key ∈ Entries.keys schema.sections,
      entries.lookup key = schema.sections.lookup key) :
    readFields (.map entries) = .ok (schema.fields.map .str) := by
  have hget : (Value.map entries).get? "fields" = some (.list (schema.fields.map .str)) :=
    hentries "fields" List.mem_cons_self
  have hgiven : schema.fields.isEmpty = false := by
    rw [List.isEmpty_eq_false_iff]
    exact hsound.ne_nil
  rw [readFields, hget]
  simp [Value.isGiven, hgiven, Value.items]

theorem ofValue_eq {schema : Schema} (h : schema.IsStorable) (hsound : schema.Sound)
    {entries : Entries} (hentries : ∀ key ∈ Entries.keys schema.sections,
      entries.lookup key = schema.sections.lookup key) :
    ofValue (.map entries) = .ok schema.reread := by
  have hfields := readFields_eq hsound hentries
  simp only [sections, Entries.keys, List.map_cons, List.map_nil, List.forall_mem_cons] at hentries
  rcases hentries with ⟨-, hdefinitions, -⟩
  have hgiven : schema.fields.isEmpty = false := by
    rw [List.isEmpty_eq_false_iff]
    exact hsound.ne_nil
  have hread : readDefinitions (.map entries) = .ok schema.reread.definitions := by
    have hget : (Value.map entries).get? "field_definitions" = some (.map (schema.fields.map
        fun name => (name, (schema.definition name).toValue))) := hdefinitions
    rw [readDefinitions, hget]
    simp only [Value.isGiven, List.isEmpty_map, hgiven, Bool.not_false, if_true, Value.entries,
      bind, Except.bind]
    rw [List.mapM_map]
    refine Steps.mapM_eq_ok fun name hname => ?_
    have hd := (h.definition hsound hname).ofEntries_toEntries
    simp [Definition.ofValue, Definition.toValue, Value.entries, bind, Except.bind, hd, Except.map]
  rw [ofValue]
  simp only [Value.entries, hfields, hread, bind, Except.bind, List.map_map]
  congr 2
  exact List.map_id _

theorem keys_reread (schema : Schema) : Entries.keys schema.reread.definitions = schema.fields := by
  rw [reread, Entries.keys, List.map_map]
  exact List.map_id _

theorem has_reread {schema : Schema} {name : String} (h : name ∈ schema.fields) :
    schema.reread.has name = true := by
  rwa [has_iff_mem_keys, keys_reread]

theorem undefined_reread (schema : Schema) :
    schema.reread.undefined (schema.fields.map .str) = .ok [] := by
  have hkeys : (schema.fields.map Value.str).mapM Value.asKey = .ok (schema.fields.map .str) := by
    rw [List.mapM_map]
    exact Steps.mapM_eq_ok fun name _ => rfl
  have hnone : ((schema.fields.map Value.str).filter fun name =>
      !name.text?.any schema.reread.has) = [] := by
    rw [List.filter_eq_nil_iff]
    intro v hv
    rcases List.mem_map.mp hv with ⟨name, hname, rfl⟩
    simp [Value.text?, has_reread hname]
  rw [undefined, hkeys]
  exact congrArg Except.ok hnone

end Schema

/-!
## Manifests
-/

namespace Manifest

/-- Every section can be written to a document, and those that must be given are not empty. -/
structure IsStorable (m : Manifest) : Prop where
  version : m.version ≠ ""
  backend : m.backend ≠ ""
  state : (Value.map m.state).IsDocument
  state_ne : m.state ≠ []
  options : (Value.map m.options).IsDocument
  schema : m.schema.IsStorable
  sound : m.schema.Sound

/-- The manifest as it is read again. -/
def reread (m : Manifest) : Manifest :=
  { m with schema := m.schema.reread }

/-- The sections before those of the schema. -/
def head (m : Manifest) : Entries :=
  [("version", .str m.version), ("generated", .str m.generated), ("backend", .str m.backend),
    ("backend_state", .map m.state), ("storage_initialized", .bool m.initialized),
    ("options", .map m.options)]

theorem IsStorable.toEntries_eq {m : Manifest} (h : m.IsStorable) :
    m.toEntries = .ok (m.head ++ m.schema.sections) := by
  rw [toEntries, Schema.toEntries_eq h.sound]
  rfl

theorem IsStorable.isDocument {m : Manifest} (h : m.IsStorable) :
    (Value.map (m.head ++ m.schema.sections)).IsDocument := by
  have hkeys : Entries.keys (m.head ++ m.schema.sections) = ["version", "generated", "backend",
      "backend_state", "storage_initialized", "options", "fields", "field_definitions"] := rfl
  refine .map (hkeys ▸ by decide) ?_
  rw [List.forall_mem_append]
  refine ⟨?_, h.schema.isDocument h.sound⟩
  simp only [head, List.forall_mem_cons]
  exact ⟨.str _, .str _, .str _, h.state, .bool _, h.options, fun section_ hnone => nomatch hnone⟩

theorem IsStorable.ofEntries_eq {m : Manifest} (h : m.IsStorable) :
    ofEntries (m.head ++ m.schema.sections) = .ok m.reread := by
  have hsections : ∀ key ∈ Entries.keys m.schema.sections,
      (m.head ++ m.schema.sections).lookup key = m.schema.sections.lookup key := by
    simp [Schema.sections, Entries.keys, head, List.lookup_cons]
  have hschema := Schema.ofValue_eq h.schema h.sound hsections
  have hfields := Schema.readFields_eq h.sound hsections
  have hmissing : (requiredSections.filter fun key =>
      !(((m.head ++ m.schema.sections).lookup key).getD .null).isGiven) = [] := by
    simp [requiredSections, head, Schema.sections, List.lookup_cons, Value.isGiven, h.backend,
      h.state_ne, h.sound.ne_nil]
  have hundefined := Schema.undefined_reread m.schema
  have hlift : ∀ {α : Type} (a : α), (liftM (.ok a : Except ValueFault α) : Except Fault α) = .ok a :=
    fun _ => rfl
  have hbackend : ((m.head ++ m.schema.sections).lookup "backend") = some (.str m.backend) := rfl
  have hstate : ((m.head ++ m.schema.sections).lookup "backend_state") = some (.map m.state) := rfl
  have hoptions : ((m.head ++ m.schema.sections).lookup "options") = some (.map m.options) := rfl
  have hflag : ((m.head ++ m.schema.sections).lookup "storage_initialized") =
      some (.bool m.initialized) := rfl
  have hversion : textOr ((m.head ++ m.schema.sections).lookup "version") "1.0" = m.version := by
    simp [textOr, head, Value.isGiven, Value.text, h.version]
  have hgenerated : textOr ((m.head ++ m.schema.sections).lookup "generated") "" = m.generated := by
    by_cases hnone : m.generated = ""
    · simp [textOr, head, List.lookup_cons, Value.isGiven, hnone]
    · simp [textOr, head, List.lookup_cons, Value.isGiven, Value.text, hnone]
  -- Every section is found again; what is left is to read them in their order.
  rw [ofEntries]
  dsimp only
  rw [hmissing]
  simp only [hschema, hfields, hundefined, hlift, hbackend, hstate, hoptions, hflag, hversion, hgenerated,
    bind, Except.bind, pure, Except.pure, List.isEmpty_nil, Bool.not_true, Bool.false_eq_true,
    if_false, Option.getD_some, Option.elim, Value.pairs, Value.text, Value.isGiven]
  cases hempty : m.options.isEmpty with
  | false => rfl
  | true =>
      rw [List.isEmpty_iff] at hempty
      rw [reread, hempty]
      rfl

/-- A manifest is read back from the file that holds its document. -/
theorem IsStorable.ofOctets_document {m : Manifest} (h : m.IsStorable) (path : String) :
    ∃ text, m.document = .ok text ∧ ofOctets path text.toUTF8 = .ok m.reread := by
  have hdocument := h.isDocument
  refine ⟨Json.write (.map (m.head ++ m.schema.sections)) ++ "\n", ?_, ?_⟩
  · rw [document, h.toEntries_eq]
    rfl
  · rw [ofOctets, Text.decodeUtf8_toUTF8]
    dsimp only [Except.mapError, bind, Except.bind]
    rw [Json.read_unifyLineEnds hdocument]
    exact h.ofEntries_eq

end Manifest
end Roster
