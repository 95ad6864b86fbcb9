import Roster.Proofs.Schema.Assembly
import Roster.Proofs.Store.Effect
import Roster.Proofs.Yaml.RoundTrip

/-!
# Texts in documents

A document gives back every text that it was made of, however it had to be written.  Only the next
line of the control characters can be lost, and only in the fields that hold it: between single
quotes it is written as a line end and read as another one.
-/

namespace Roster
namespace Documents

/-- A name of a field that a document gives back. -/
structure IsFieldName (name : String) : Prop where
  fits : Yaml.KeyFits name
  faithful : Yaml.IsFaithful name

variable {record : Record}

theorem readTexts_documentText (hne : record ≠ [])
    (hnames : ∀ name ∈ Entries.keys record, IsFieldName name)
    (hnodup : (Entries.keys record).Nodup) :
    Yaml.readTexts (documentText record).toUTF8 =
      .ok (some (record.mapTexts Yaml.rereadText)) := by
  have hname : ∀ entry ∈ record, IsFieldName entry.1 := fun entry hentry =>
    hnames entry.1 (List.mem_map_of_mem hentry)
  have hentries : record.map Yaml.rereadEntry = record.mapTexts Yaml.rereadText :=
    List.map_congr_left fun entry hentry => by
      rw [Yaml.rereadEntry, Yaml.rereadText_eq_self_iff.mpr (hname entry hentry).faithful]
  have hkeys := Record.keys_mapTexts Yaml.rereadText record
  rw [documentText, Yaml.readTexts_render hne fun entry hentry => (hname entry hentry).fits, hentries,
    Entries.setAll_nil_of_nodup (hkeys.symm ▸ hnodup)]

/-- A record of faithful texts is read back as it was written. -/
theorem readsBack_of_isFaithful (hne : record ≠ [])
    (hnames : ∀ name ∈ Entries.keys record, IsFieldName name)
    (hnodup : (Entries.keys record).Nodup) (htexts : ∀ entry ∈ record, Yaml.IsFaithful entry.2) :
    ReadsBack record := by
  have hsame : record.mapTexts Yaml.rereadText = record :=
    Record.mapTexts_eq_self fun entry hentry => Yaml.rereadText_eq_self_iff.mpr (htexts entry hentry)
  rw [ReadsBack, readTexts_documentText hne hnames hnodup, hsame]

/-!
## Insertions and updates
-/

variable {schema : Schema} {s : Documents} {tree tree' : Tree} {id : String} {now : Moment}

theorem readTexts_of_keys (hsound : schema.Sound)
    (hnames : ∀ name ∈ schema.fields, IsFieldName name)
    (hkeys : Entries.keys record = schema.fields) :
    Yaml.readTexts (documentText record).toUTF8 = .ok (some (record.mapTexts Yaml.rereadText)) := by
  have hne : record ≠ [] := by
    rintro rfl
    have hmem := hsound.known Record.idField (by decide)
    rw [← hkeys] at hmem
    cases hmem
  exact readTexts_documentText hne (hkeys ▸ hnames) (hkeys ▸ hsound.nodup)

theorem fetch_put_of_keys (hsound : schema.Sound)
    (hnames : ∀ name ∈ schema.fields, IsFieldName name)
    (hvalid : isUserId id = true) (hkeys : Entries.keys record = schema.fields) :
    s.fetch (tree.put (s.directory.child (nameOf id)).key (.file (documentText record).toUTF8)) id =
      .ok (record.mapTexts Yaml.rereadText) :=
  ((wrote_put hvalid).shown _).mpr (readTexts_of_keys hsound hnames hkeys)

/-- A text that a record holds in a field is shown there, if it is faithful. -/
theorem lookup_shown_iff {name text : String} (hlookup : record.lookup name = some text) :
    (record.mapTexts Yaml.rereadText).lookup name = some text ↔ Yaml.IsFaithful text := by
  rw [Record.lookup_mapTexts, hlookup, Option.map_some, Option.some_inj,
    Yaml.rereadText_eq_self_iff]

theorem lookup_setAll_stampChanges {fields : List String} {name : String} {changes : Record}
    (hmodified : name ≠ Record.modifiedField) (hname : name ∉ Entries.keys changes) :
    (Entries.setAll record (changes.stampChanges fields now)).lookup name = record.lookup name := by
  have hnone : (changes.stampChanges fields now).lookup name = none := by
    rw [Record.lookup_stampChanges, if_neg hmodified, Entries.lookup_eq_none_iff.mpr hname, ite_self,
      ite_self]
  rw [Entries.lookup_eq_none_iff] at hnone
  rw [Entries.lookup_setAll, Entries.lookup_eq_none_iff.mpr, Option.none_or]
  rwa [Entries.keys_reverse, List.mem_reverse]

theorem lookup_stampNew_of_mem (hsound : schema.Sound) (hfull : Entries.keys record = schema.fields)
    (hid : record.id = id) {name text : String} (hentry : (name, text) ∈ record)
    (htime : name ∉ [Record.createdField, Record.modifiedField]) :
    (record.stampNew schema.fields now id).lookup name = some text := by
  rw [List.mem_cons, List.mem_singleton, not_or] at htime
  have hlookup := Entries.lookup_of_mem (hfull.symm ▸ hsound.nodup) hentry
  have hmem : name ∈ schema.fields := hfull ▸ List.mem_map_of_mem hentry
  rw [Record.lookup_stampNew, if_neg htime.2, if_neg htime.1, if_pos hmem]
  by_cases hname : name = Record.idField
  · rw [if_pos hname, ← hid, Record.id, Record.valueOf, ← hname, hlookup]
    rfl
  · rw [if_neg hname, hlookup]

/-- What is inserted as a document is shown again, but for both times, which the store sets: a text
is the same exactly when it is faithful.  An update of other fields leaves a faithful text alone. -/
theorem text_kept {config : Value} {warnings : List SchemaWarning}
    (hschema : Schema.assemble config = .ok (schema, warnings)) (hfields : s.fields = schema.fields)
    (hnames : ∀ name ∈ schema.fields, IsFieldName name)
    (hfull : Entries.keys record = schema.fields)
    (hid : record.id = id) (hinsert : s.insert tree now id record = .ok tree') :
    ∃ shown, s.fetch tree' id = .ok shown ∧
      (∀ name text, (name, text) ∈ record → name ∉ [Record.createdField, Record.modifiedField] →
        (shown.lookup name = some text ↔ Yaml.IsFaithful text)) ∧
      ∀ (later : Moment) (changes : Record) (tree'' : Tree),
        s.update tree' later id changes = .ok tree'' →
        ∃ changed, s.fetch tree'' id = .ok changed ∧ ∀ name text, (name, text) ∈ record →
          name ∉ [Record.createdField, Record.modifiedField] → name ∉ Entries.keys changes →
          Yaml.IsFaithful text → changed.lookup name = some text := by
  have hsound := Schema.assemble_sound hschema
  rcases insert_eq_ok hinsert with ⟨hvalid, rfl⟩
  rw [hfields] at hinsert ⊢
  have hkeys := Record.keys_stampNew now id hsound.known hfull
  have hfetch : s.fetch (tree.put (s.directory.child (nameOf id)).key
      (.file (documentText (record.stampNew schema.fields now id)).toUTF8)) id = _ :=
    fetch_put_of_keys hsound hnames hvalid hkeys
  have hshown : ∀ name text, (name, text) ∈ record →
      name ∉ [Record.createdField, Record.modifiedField] →
      (((record.stampNew schema.fields now id).mapTexts Yaml.rereadText).lookup name = some text ↔
        Yaml.IsFaithful text) :=
    fun name text hentry htime =>
      lookup_shown_iff (lookup_stampNew_of_mem hsound hfull hid hentry htime)
  refine ⟨_, hfetch, hshown, fun later changes tree'' hupdate => ?_⟩
  rcases update_eq_ok hfetch hupdate with ⟨-, rfl⟩
  rw [hfields]
  have hkeys' := Record.keys_setAll_stampChanges later changes hsound.known
    ((Record.keys_mapTexts Yaml.rereadText _).trans hkeys)
  refine ⟨_, fetch_put_of_keys hsound hnames hvalid hkeys',
    fun name text hentry htime hname htext => ?_⟩
  have hold := (hshown name text hentry htime).mpr htext
  rw [List.mem_cons, List.mem_singleton, not_or] at htime
  rw [lookup_shown_iff ((lookup_setAll_stampChanges htime.2 hname).trans hold)]
  exact htext

theorem isFieldName_of_length {name : String} (h : name.length ≤ 102)
    (hfaithful : Yaml.IsFaithful name) : IsFieldName name :=
  ⟨Yaml.keyFits_of_length h, hfaithful⟩

/-- A record with a note that can only be written with escapes. -/
def trickyRecord : Record :=
  Registry.noteSchema.fields.map fun name =>
    (name, if name = "user_id" then "ada" else if name = "note" then "no: \t# it's \"\u2028" else "")

theorem text_kept_of_tricky :
    ∃ tree shown, (Documents.mk (.ofText ".") Registry.noteSchema.fields).insert {} 0 "ada" trickyRecord =
        .ok tree ∧
      (Documents.mk (.ofText ".") Registry.noteSchema.fields).fetch tree "ada" = .ok shown ∧
      shown.lookup "note" = some "no: \t# it's \"\u2028" := by
  rcases Registry.assemble_noteSetup with ⟨warnings, hassemble⟩
  have hnames : ∀ name ∈ Registry.noteSchema.fields, IsFieldName name := by
    have hall : ∀ name ∈ Registry.noteSchema.fields, name.length ≤ 102 ∧ Yaml.IsFaithful name := by
      decide +kernel
    exact fun name hname => isFieldName_of_length (hall name hname).1 (hall name hname).2
  have hmade : ((Documents.mk (.ofText ".") Registry.noteSchema.fields).insert {} 0 "ada"
      trickyRecord).isOk = true := by
    decide +kernel
  cases hinsert : (Documents.mk (.ofText ".") Registry.noteSchema.fields).insert {} 0 "ada" trickyRecord with
  | error failure =>
      rw [hinsert] at hmade
      cases hmade
  | ok tree =>
      rcases text_kept hassemble rfl hnames (by decide +kernel) (by decide +kernel) hinsert with
        ⟨shown, hfetch, hlookup, -⟩
      exact ⟨tree, shown, rfl, hfetch,
        (hlookup "note" _ (by decide +kernel) (by decide)).mpr (by decide +kernel)⟩

end Documents
end Roster
