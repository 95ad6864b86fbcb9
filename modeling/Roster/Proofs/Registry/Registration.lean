import Roster.Proofs.Registry.WellFormed

/-!
# What is stored of a new user

A user who was registered is shown with every field of the schema: the login name and the moniker
that were supplied, the time of the registration, and in each other field what was accepted for it,
or else its default, or else its null value.
-/

namespace Roster
namespace Registry

variable {r : Registry} {now : Moment} {entries : Entries} {name : String}

/-- The record of a user who was registered with some data. -/
structure IsRegistration (r : Registry) (now : Moment) (entries : Entries) (user : Record) :
    Prop where
  keys : Entries.keys user = r.schema.fields
  id : ∃ v, entries.lookup Record.idField = some v ∧
    user.lookup Record.idField = some (Text.strip v.stored)
  moniker : ∃ v, entries.lookup monikerField = some v ∧
    user.lookup monikerField = some (Text.strip v.stored)
  times : ∀ name ∈ timeFields, user.lookup name = some now.stamp
  others : ∀ name ∈ r.schema.fields, name ∉ Record.readOnlyFields → name ≠ monikerField →
    ∃ d, r.schema.get? name = some d ∧
      user.lookup name = some (((r.verdict (checked entries)).accepted.lookup name).getD
        (d.default.getD d.nullValue))

/-!
## Supplied and accepted values
-/

theorem lookup_supplied (hname : name ∉ timeFields) :
    (supplied entries).lookup name = (entries.lookup name).map fun v => Text.strip v.stored := by
  have hfilter := Entries.lookup_filter (p := fun key => !timeFields.contains key)
    (clean entries) name
  have hkept : (!timeFields.contains name) = true := by
    rw [Bool.not_eq_true', Bool.eq_false_iff, Ne, List.contains_iff_mem]
    exact hname
  rw [supplied, without, hfilter, if_pos hkept]
  exact Entries.lookup_map (fun v : Value => Text.strip v.stored) entries name

theorem exists_supplied (hname : name ∉ timeFields) (hne : (supplied entries).valueOf name ≠ "") :
    ∃ v, entries.lookup name = some v ∧
      (supplied entries).valueOf name = Text.strip v.stored := by
  rw [Record.valueOf, lookup_supplied hname] at hne ⊢
  cases hlookup : entries.lookup name with
  | none =>
      rw [hlookup] at hne
      exact absurd rfl hne
  | some v => exact ⟨v, rfl, rfl⟩

theorem nodup_keys_checked (h : (Entries.keys entries).Nodup) :
    (Entries.keys (checked entries)).Nodup := by
  rw [← keys_clean] at h
  exact keys_without_nodup (keys_without_nodup h)

/-!
## Records
-/

theorem isRegistration_registered (now : Moment) (hschema : r.schema.Sound)
    (hkeys : (Entries.keys entries).Nodup)
    (hvalid : isUserId ((supplied entries).valueOf Record.idField) = true)
    (hmoniker : Grammar.isMoniker ((supplied entries).valueOf monikerField).toList = true)
    (hverdict : (r.verdict (checked entries)).success = true) :
    r.IsRegistration now entries (r.registered now entries) where
  keys := Record.keys_stampNew _ _ hschema.known (keys_newRecord hschema _ _ _)
  id := by
    rcases exists_supplied (by decide) (isUserId_ne_empty hvalid) with ⟨v, hlookup, hvalue⟩
    refine ⟨v, hlookup, ?_⟩
    rw [← hvalue, registered, Record.lookup_stampNew, if_pos rfl]
    rfl
  moniker := by
    have hne : (supplied entries).valueOf monikerField ≠ "" := by
      intro hempty
      rw [hempty] at hmoniker
      exact absurd hmoniker (by decide)
    rcases exists_supplied (by decide) hne with ⟨v, hlookup, hvalue⟩
    refine ⟨v, hlookup, ?_⟩
    rw [← hvalue, registered, lookup_stampNew_of_notMem (hschema.core _ (by decide)) (by decide),
      newRecord, Entries.lookup_set, if_pos rfl]
    rfl
  times := by
    intro name hname
    rw [timeFields, List.mem_cons, List.mem_singleton] at hname
    rcases hname with rfl | rfl
    · rw [registered, Record.lookup_stampNew, if_neg (by decide), if_neg (by decide), if_pos rfl]
    · rw [registered, Record.lookup_stampNew, if_neg (by decide), if_pos rfl]
  others := by
    intro name hname hfree hother
    have hhas := (hschema.has_iff name).mpr hname
    have haccepted := nodup_keys_accepted (nodup_keys_checked hkeys) hverdict
    have hstorable : (Entries.keys (r.storable (r.verdict (checked entries)).accepted)).Nodup :=
      haccepted.sublist (List.Sublist.map Prod.fst List.filter_sublist)
    have hd := hschema.get?_eq hname
    refine ⟨r.schema.definition name, hd, ?_⟩
    rw [lookup_registered now hschema hname hfree hother, Entries.lookup_reverse hstorable,
      lookup_storable hhas hfree, initialValue, hd]
    cases (r.verdict (checked entries)).accepted.lookup name <;> rfl

/-!
## Requests
-/

/-- When a user is registered with success, on a store that behaves as a map, the user is shown with
what was accepted over what a new user starts out with, whether data are validated or not. -/
theorem get_of_registered {σ : Type} [RecordStore σ] {Keeps : σ → Book → Prop}
    (hmap : IsMap Keeps) {config : Value} {schema : Schema} {warnings : List SchemaWarning}
    (hschema : Schema.assemble config = .ok (schema, warnings)) (hr : r.schema = schema)
    {store store' : σ} {b : Book} (hkeeps : Keeps store b) (hbook : b.Sound)
    (hfields : b.fields = schema.fields) (hkeys : (Entries.keys entries).Nodup) {a : UserAnswer}
    (hrequest : r.register store now (.map entries) = .ok (a, store'))
    (hsuccess : a.success = true) :
    ∃ user, get store' (.str user.id) .null = .ok ⟨.found user, user.id, []⟩ ∧ a.id = user.id ∧
      r.IsRegistration now entries user := by
  subst hr
  have hsound := Schema.assemble_sound hschema
  rcases hmap.shifts hsound hkeeps hbook hfields now (.register (.map entries)) with
    ⟨b', hnext, hshifts, hbook', -⟩
  rw [answer, hrequest] at hnext hshifts
  rcases register_eq_ok hrequest hsuccess with ⟨hvalid, -, -, -, rfl⟩
  dsimp only [conclude] at hnext hshifts
  cases hshifts with
  | stays reply hreply => exact absurd rfl (hreply _ _ _)
  | registers _ hmoniker hverdict hwrote =>
      have hid : (r.registered now entries).id = (supplied entries).valueOf Record.idField :=
        Record.id_stampNew _ _ _ _
      have hfetch : RecordStore.fetch store' (r.registered now entries).id =
          .ok (r.registered now entries) := by
        rw [hmap.fetch hnext hbook', Book.fetch_eq_ok_iff, hwrote.find?, if_pos hid]
      refine ⟨r.registered now entries, get_of_fetch (idOf?_of_isUserId ?_) hfetch, hid.symm,
        isRegistration_registered now hsound hkeys hvalid hmoniker hverdict⟩
      rwa [hid]

/-- Data with blanks around the login name, a time that only a store sets, and an unknown field. -/
def junkEntries : Entries :=
  [("user_id", .str " ada "), ("moniker", .str "Ada"), ("created_date", .str "never"),
    ("note", .str "first"), ("unknown", .str "x")]

/-- What a registration with that data is answered. -/
def junkAnswer : UserAnswer :=
  ⟨.done .created, "ada", ["Field 'unknown' not recognized in schema; input data skipped"]⟩

theorem register_junkEntries {m : Mounted Store} (h : m.IsSetUp .database noteSchema) :
    ∃ m', noteRegistry.register m 60 (.map junkEntries) = .ok (junkAnswer, m') := by
  have hschema : noteRegistry.schema.Sound := sound_noteSchema
  have hfollows := follows_answer (holds_noteSchema h).1
    (Book.sound_empty hschema.nodup hschema.known) hschema rfl 60 (.register (.map junkEntries))
    (fun record _ => admits_of_isSetUp h record) trivial
  have hreply : (noteRegistry.answer (Book.mk noteSchema.fields []) 60
      (.register (.map junkEntries))).1 = .ok (.user junkAnswer) := by
    decide +kernel
  exact ⟨_, of_conclude_eq (hfollows.reply.trans hreply)⟩

theorem get_of_registered_of_junkEntries :
    ∃ (m m' : Mounted Store) (user : Record), m.IsSetUp .database noteSchema ∧
      get m' (.str "ada") .null = .ok ⟨.found user, "ada", []⟩ ∧
      Entries.keys user = noteSchema.fields ∧ user.lookup "created_date" = some (Moment.stamp 60) ∧
      user.lookup "note" = some "first" := by
  rcases assemble_noteSetup with ⟨warnings, hassemble⟩
  rcases exists_isSetUp_noteSchema .database with ⟨m, hsetup⟩
  have hbook := Book.sound_empty sound_noteSchema.nodup sound_noteSchema.known
  rcases register_junkEntries hsetup with ⟨m', hrequest⟩
  rcases get_of_registered (r := noteRegistry) isMap_database hassemble rfl
    (holds_noteSchema hsetup) hbook rfl (by decide) hrequest rfl with ⟨user, hget, hsame, huser⟩
  have hnote : (noteRegistry.verdict (checked junkEntries)).accepted.lookup "note" =
      some "first" := by
    decide +kernel
  rcases huser.others "note" (by decide +kernel) (by decide) (by decide) with ⟨d, -, hlookup⟩
  rw [hnote] at hlookup
  rw [← hsame] at hget
  exact ⟨m, m', user, hsetup, hget, huser.keys, huser.times _ (by decide), hlookup⟩

end Registry
end Roster
