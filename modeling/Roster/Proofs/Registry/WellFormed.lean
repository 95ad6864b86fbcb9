import Roster.Proofs.Registry.MapStores
import Roster.Proofs.Registry.Required

/-!
# Records stay well formed

Every record that a validating registry keeps in a store has all fields of the schema and no other,
a login name that no other record has, and a moniker; and each field that callers can change holds
what it started out with, or else a value that its validator accepted.
-/

namespace Roster

namespace Registry

/-- A record is as a registry that validates leaves it. -/
structure IsWellFormed (schema : Schema) (record : Record) : Prop where
  id_valid : isUserId record.id = true
  full : Entries.keys record = schema.fields
  moniker : Grammar.isMoniker (record.valueOf monikerField).toList = true ∨
    schema.Accepts monikerField (record.valueOf monikerField)
  fields : ∀ name ∈ schema.fields, name ∉ Record.readOnlyFields → name ≠ monikerField →
    record.valueOf name = initialValue schema name ∨ schema.Accepts name (record.valueOf name)

variable {r : Registry} {now : Moment} {entries : Entries} {name text : String}

/-!
## Single records
-/

theorem accepted_or_initial (now : Moment) (hschema : r.schema.Sound)
    (hname : name ∈ r.schema.fields) (hfree : name ∉ Record.readOnlyFields)
    (hmoniker : name ≠ monikerField) :
    (r.registered now entries).valueOf name = initialValue r.schema name ∨
      (name, (r.registered now entries).valueOf name) ∈
        (r.verdict (checked entries)).accepted := by
  rw [Record.valueOf, lookup_registered now hschema hname hfree hmoniker]
  cases hstored : (r.storable (r.verdict (checked entries)).accepted).reverse.lookup name with
  | none => exact Or.inl rfl
  | some text =>
      have hmem := List.mem_reverse.mp (Entries.mem_of_lookup hstored)
      exact Or.inr (List.mem_of_mem_filter hmem)

theorem accepted_or_before (now : Moment) (entries : Entries)
    (hmodified : name ≠ Record.modifiedField) (before : Record) :
    (r.updated now entries before).valueOf name = before.valueOf name ∨
      (name, (r.updated now entries before).valueOf name) ∈
        (r.verdict (checkedChanges entries)).accepted := by
  rw [updated, Record.valueOf, Entries.lookup_setAll]
  cases hstored : List.lookup name (List.reverse (Record.stampChanges r.schema.fields now
      (r.storable (r.verdict (without Record.readOnlyFields (clean entries))).accepted))) with
  | none => exact Or.inl rfl
  | some text => exact Or.inr (mem_accepted_of_stampChanges hmodified hstored)

theorem isWellFormed_registered (now : Moment) (hschema : r.schema.Sound)
    (hvalidates : r.bypass = false)
    (hvalid : isUserId ((supplied entries).valueOf Record.idField) = true)
    (hmoniker : Grammar.isMoniker ((supplied entries).valueOf monikerField).toList = true)
    (hverdict : (r.verdict (checked entries)).success = true) :
    IsWellFormed r.schema (r.registered now entries) where
  id_valid := by
    rw [registered, Record.id_stampNew]
    exact hvalid
  full := Record.keys_stampNew _ _ hschema.known (keys_newRecord hschema _ _ _)
  moniker := by
    rw [valueOf_moniker_registered now hschema]
    exact Or.inl hmoniker
  fields := by
    intro name hname hfree hother
    apply (accepted_or_initial now hschema hname hfree hother).imp_right
    intro haccepted
    exact accepts_of_accepted hvalidates hverdict haccepted

theorem IsWellFormed.updated {before : Record} (h : IsWellFormed r.schema before) (now : Moment)
    (hschema : r.schema.Sound) (hvalidates : r.bypass = false)
    (hverdict : (r.verdict (checkedChanges entries)).success = true) :
    IsWellFormed r.schema (r.updated now entries before) where
  id_valid := by
    rw [Registry.updated, Record.id_setAll_stampChanges]
    exact h.id_valid
  full := Record.keys_setAll_stampChanges _ _ hschema.known h.full
  moniker := by
    have hmodified : monikerField ≠ Record.modifiedField := by
      decide
    rcases accepted_or_before now entries hmodified before with hsame | haccepted
    · rw [hsame]
      exact h.moniker
    · exact Or.inr (accepts_of_accepted hvalidates hverdict haccepted)
  fields := by
    intro name hname hfree hother
    have hmodified : name ≠ Record.modifiedField := by
      rintro rfl
      exact hfree (by decide)
    rcases accepted_or_before now entries hmodified before with hsame | haccepted
    · rw [hsame]
      exact h.fields name hname hfree hother
    · exact Or.inr (accepts_of_accepted hvalidates hverdict haccepted)

/-!
## Runs
-/

section Runs

variable {σ : Type} [RecordStore σ] {store : σ} {Keeps : σ → Book → Prop} {b b' : Book}

/-- All records of the book are well formed after a request when they were before. -/
theorem Shifts.isWellFormed {request : Request} {reply : Except Fault Reply}
    (h : Shifts r b now request reply b') (hschema : r.schema.Sound)
    (hvalidates : r.bypass = false)
    (hall : ∀ record ∈ b.records, IsWellFormed r.schema record) :
    ∀ record ∈ b'.records, IsWellFormed r.schema record := by
  cases h with
  | stays reply hreply => exact hall
  | registers hid hmoniker hverdict hwrote =>
      have hvalid := hwrote.sound.ids_valid _ hwrote.mem_self
      rw [registered, Record.id_stampNew] at hvalid
      exact (hwrote.forall_iff hall).mpr
        (isWellFormed_registered now hschema hvalidates hvalid hmoniker hverdict)
  | updates hid hverdict hfound hwrote =>
      have hold := hall _ (List.mem_of_find?_eq_some hfound)
      exact (hwrote.forall_iff hall).mpr (hold.updated now hschema hvalidates hverdict)
  | deletes hid =>
      intro record hrecord
      exact hall record (List.mem_of_mem_filter hrecord)

/-- Whatever a registry that validates was asked for, on an empty store that behaves as a map: the
store shows some records under their own ids, no two of them have the same id, and all of them are
well formed. -/
theorem wellFormed_of_run {config : Value} {schema : Schema} {warnings : List SchemaWarning}
    (hschema : Schema.assemble config = .ok (schema, warnings)) (hr : r.schema = schema)
    (hvalidates : r.bypass = false) (hmap : IsMap Keeps) (hempty : Keeps store ⟨schema.fields, []⟩)
    (requests : List (Moment × Request)) :
    ∃ records : List Record,
      (∀ id record, RecordStore.fetch (r.run store requests).2 id = .ok record ↔
        record ∈ records ∧ record.id = id) ∧
      (records.map Record.id).Nodup ∧ ∀ record ∈ records, IsWellFormed schema record := by
  subst hr
  have hsound := Schema.assemble_sound hschema
  have hstart : ∀ record ∈ (Book.mk r.schema.fields []).records, IsWellFormed r.schema record := by
    intro record hrecord
    cases hrecord
  rcases hmap.run hsound hempty
    (fun _ b => ∀ record ∈ b.records, IsWellFormed r.schema record) hstart
    (fun _ _ hall hshifts => hshifts.isWellFormed hsound hvalidates hall) requests with
    ⟨b, hkeeps, hbook, -, hall⟩
  refine ⟨b.records, ?_, hbook.ids_nodup, hall⟩
  intro id record
  rw [hmap.fetch hkeeps hbook, Book.fetch_eq_ok_iff, Book.find?_eq_some_iff hbook.ids_nodup]

end Runs

theorem wellFormed_of_run_of_stay :
    ∃ (m : Mounted Store) (records : List Record), m.IsSetUp .database noteSchema ∧
      (∀ id record, RecordStore.fetch (noteRegistry.run m stay).2 id = .ok record ↔
        record ∈ records ∧ record.id = id) ∧
      (records.map Record.id).Nodup ∧ (∀ record ∈ records, IsWellFormed noteSchema record) ∧
      ∃ record ∈ records, record.id = "ada" ∧ record.valueOf monikerField = "Countess" := by
  rcases assemble_noteSetup with ⟨warnings, hassemble⟩
  rcases exists_isSetUp_noteSchema .database with ⟨m, hsetup⟩
  have hshield := fun name hname =>
    ColumnName.unshield_of_isIdentifier (isIdentifier_noteSchema name hname)
  rcases wellFormed_of_run (r := noteRegistry) hassemble rfl rfl isMap_database
    (holds_of_isSetUp sound_noteSchema hshield hsetup) stay with ⟨records, hshown, hnodup, hall⟩
  refine ⟨m, records, hsetup, hshown, hnodup, hall, ?_⟩
  have hmoniker : (RecordStore.fetch (noteRegistry.run (Book.mk noteSchema.fields []) stay).2
      "ada").toOption.map (·.valueOf monikerField) = some "Countess" := by
    decide +kernel
  rw [← (stay_eq rfl hsetup).2] at hmoniker
  cases hfetch : RecordStore.fetch (noteRegistry.run m stay).2 "ada" with
  | error failure =>
      rw [hfetch] at hmoniker
      cases hmoniker
  | ok record =>
      rw [hfetch] at hmoniker
      rcases (hshown "ada" record).mp hfetch with ⟨hmem, hid⟩
      exact ⟨record, hmem, hid, Option.some.inj hmoniker⟩

end Registry
end Roster
