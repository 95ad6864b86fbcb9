import Roster.Proofs.Registry.Histories

/-!
# Required fields hold data

A required field of a user holds data from the first time on that a value for it was accepted, and
no change takes the data away.  A user who was registered without a value for it, because it was
left out or failed its validator and was dropped, starts out with the initial value of the field.
-/

namespace Roster

/-- The text stands for data in a field, and the validator of the field accepts it. -/
def Schema.Accepts (schema : Schema) (name text : String) : Prop :=
  ∃ d kind, schema.get? name = some d ∧ text ≠ d.nullValue ∧ d.validator? = some kind ∧
    kind.accepts d text = true

namespace Registry

variable {r : Registry} {now : Moment} {entries : Entries} {name : String} {d : Definition}

/-!
## Values
-/

theorem accepts_of_accepted (hvalidates : r.bypass = false) {data : Record}
    (hverdict : (r.verdict data).success = true) {text : String}
    (haccepted : (name, text) ∈ (r.verdict data).accepted) : r.schema.Accepts name text := by
  rw [verdict_of_validating hvalidates] at hverdict haccepted
  rw [(Policy.check_of_success hverdict).1] at haccepted
  rcases List.mem_filterMap.mp haccepted with ⟨entry, -, hkept⟩
  rcases Policy.keptOf_eq_some hkept with ⟨rfl, hrule⟩
  rcases Policy.rule_eq_keep hrule with ⟨d, kind, hd, -, hne, hvalidator, hpasses⟩
  exact ⟨d, kind, hd, hne, hvalidator, hpasses⟩

theorem ne_nullValue_of_accepted (hvalidates : r.bypass = false) {data : Record}
    (hverdict : (r.verdict data).success = true) {text : String}
    (haccepted : (name, text) ∈ (r.verdict data).accepted) (hd : r.schema.get? name = some d) :
    text ≠ d.nullValue := by
  rcases accepts_of_accepted hvalidates hverdict haccepted with ⟨d', -, hd', hne, -⟩
  rw [hd] at hd'
  cases hd'
  exact hne

theorem mem_keys_of_accepted (hvalidates : r.bypass = false) {data : Record}
    (hverdict : (r.verdict data).success = true)
    (haccepted : name ∈ Entries.keys (r.verdict data).accepted) : name ∈ Entries.keys data := by
  rw [verdict_of_validating hvalidates] at hverdict haccepted
  rw [(Policy.check_of_success hverdict).1] at haccepted
  rw [← keys_submission]
  exact (Entries.keys_filterMap_sublist (f := Policy.keptOf r.schema) Policy.key_of_keptOf
    (submission data)).subset haccepted

theorem mem_keys_storable_of_mem (hhas : r.schema.has name = true)
    (hfree : name ∉ Record.readOnlyFields) {data : Record} (h : name ∈ Entries.keys data) :
    name ∈ Entries.keys (r.storable data) := by
  rcases List.mem_map.mp h with ⟨entry, hentry, rfl⟩
  refine List.mem_map_of_mem (List.mem_filter.mpr ⟨hentry, ?_⟩)
  rw [hhas, Bool.true_and, Bool.not_eq_true', Bool.eq_false_iff, Ne, List.contains_iff_mem]
  exact hfree

theorem notMem_readOnlyFields_of_checkedChanges (h : name ∈ Entries.keys (checkedChanges entries)) :
    name ∉ Record.readOnlyFields := by
  rcases List.mem_map.mp h with ⟨entry, hentry, rfl⟩
  have hkept := (List.mem_filter.mp hentry).2
  rwa [Bool.not_eq_true', Bool.eq_false_iff, Ne, List.contains_iff_mem] at hkept

theorem dropped_of_required (hvalidates : r.bypass = false) {data : Record}
    (hverdict : (r.verdict data).success = true)
    (hleft : name ∉ Entries.keys (r.verdict data).accepted) (hd : r.schema.get? name = some d)
    (hrequired : d.required = true) {text : String} (hentry : (name, text) ∈ data) :
    text ≠ d.nullValue ∧ ∃ warning, Policy.ruleValue d name text = .warn warning := by
  rw [verdict_of_validating hvalidates] at hverdict hleft
  exact Policy.dropped_of_required hverdict hleft hd hrequired (List.mem_map_of_mem hentry)

theorem lookup_registered (now : Moment) (hschema : r.schema.Sound)
    (hname : name ∈ r.schema.fields) (hfree : name ∉ Record.readOnlyFields)
    (hmoniker : name ≠ monikerField) :
    (r.registered now entries).lookup name =
      ((r.storable (r.verdict (checked entries)).accepted).reverse.lookup name).or
        (some (initialValue r.schema name)) := by
  have hid : name ≠ Record.idField := by
    rintro rfl
    exact hfree (by decide)
  rw [registered, lookup_stampNew_of_notMem hname hfree, newRecord, Entries.lookup_set,
    if_neg hmoniker, Entries.lookup_set, if_neg hid, Entries.lookup_setAll,
    lookup_initialRecord hschema hname]
  rfl

theorem valueOf_moniker_registered (now : Moment) (hschema : r.schema.Sound) :
    (r.registered now entries).valueOf monikerField =
      (supplied entries).valueOf monikerField := by
  have hfree : monikerField ∉ Record.readOnlyFields := by
    decide
  rw [registered, Record.valueOf, lookup_stampNew_of_notMem (hschema.core _ (by decide)) hfree,
    newRecord, Entries.lookup_set, if_pos rfl, Option.getD_some]
  rfl

/-- A field of a new user holds data, or nothing was accepted for it and it holds its initial
value. -/
theorem valueOf_registered (now : Moment) (hschema : r.schema.Sound) (hvalidates : r.bypass = false)
    (hverdict : (r.verdict (checked entries)).success = true) (hd : r.schema.get? name = some d)
    (hfree : name ∉ Record.readOnlyFields) (hmoniker : name ≠ monikerField) :
    (r.registered now entries).valueOf name ≠ d.nullValue ∨
      (r.registered now entries).valueOf name = initialValue r.schema name ∧
        name ∉ Entries.keys (r.verdict (checked entries)).accepted := by
  have hhas : r.schema.has name = true := by
    rw [Schema.has, hd]
    rfl
  have hname := mem_fields_of_has hschema hhas
  rw [Record.valueOf, lookup_registered now hschema hname hfree hmoniker]
  cases hstored : (r.storable (r.verdict (checked entries)).accepted).reverse.lookup name with
  | some text =>
      have hmem := List.mem_reverse.mp (Entries.mem_of_lookup hstored)
      exact Or.inl (ne_nullValue_of_accepted hvalidates hverdict (List.mem_of_mem_filter hmem) hd)
  | none =>
      refine Or.inr ⟨rfl, fun hkey => ?_⟩
      rw [Entries.lookup_eq_none_iff, Entries.keys_reverse, List.mem_reverse] at hstored
      exact hstored (mem_keys_storable_of_mem hhas hfree hkey)

/-- A field of a changed user holds data, or nothing was accepted for it and it holds what it held
before. -/
theorem valueOf_updated (now : Moment) (hschema : r.schema.Sound) (hvalidates : r.bypass = false)
    (hverdict : (r.verdict (checkedChanges entries)).success = true)
    (hd : r.schema.get? name = some d) (htime : name ∉ timeFields) (before : Record) :
    (r.updated now entries before).valueOf name ≠ d.nullValue ∨
      (r.updated now entries before).valueOf name = before.valueOf name ∧
        name ∉ Entries.keys (r.verdict (checkedChanges entries)).accepted := by
  have hmodified : name ≠ Record.modifiedField := by
    rintro rfl
    exact htime (by decide)
  rw [updated, Record.valueOf, Entries.lookup_setAll]
  cases hstored : List.lookup name (List.reverse (Record.stampChanges r.schema.fields now
      (r.storable (r.verdict (without Record.readOnlyFields (clean entries))).accepted))) with
  | some text =>
      have haccepted := mem_accepted_of_stampChanges hmodified hstored
      exact Or.inl (ne_nullValue_of_accepted hvalidates hverdict haccepted hd)
  | none =>
      refine Or.inr ⟨rfl, fun hkey => ?_⟩
      have hhas : r.schema.has name = true := by
        rw [Schema.has, hd]
        rfl
      have hfree := notMem_readOnlyFields_of_checkedChanges
        (mem_keys_of_accepted hvalidates hverdict hkey)
      rw [Entries.lookup_eq_none_iff, Entries.keys_reverse, List.mem_reverse,
        ← Entries.lookup_eq_none_iff, Record.lookup_stampChanges, if_neg hmodified, if_neg hfree,
        if_pos (mem_fields_of_has hschema hhas), Entries.lookup_eq_none_iff] at hstored
      exact hstored (mem_keys_storable_of_mem hhas hfree hkey)

/-!
## Records
-/

/-- Nothing was supplied for a field, unless it stood for data and was dropped with a warning. -/
def Drops (data : Record) (name : String) (d : Definition) : Prop :=
  ∀ text, (name, text) ∈ data →
    text ≠ d.nullValue ∧ ∃ warning, Policy.ruleValue d name text = .warn warning

section Runs

variable {σ : Type} [RecordStore σ] {store : σ} {requests : List (Moment × Request)} {id : String}

/-- The request registers the user, or changes it and has a value accepted for the field. -/
inductive Gives (r : Registry) (store : σ) (now : Moment) (id name : String) : Request → Prop where
  | registers {entries : Entries} {warnings : List String}
      (hreply : (r.answer store now (.register (.map entries))).1 =
        .ok (.user ⟨.done .created, id, warnings⟩)) :
      Gives r store now id name (.register (.map entries))
  | updates {v : Value} {entries : Entries} {warnings : List String}
      (hreply : (r.answer store now (.update v (.map entries))).1 =
        .ok (.user ⟨.done .updated, id, warnings⟩))
      (haccepted : name ∈ Entries.keys (r.verdict (checkedChanges entries)).accepted) :
      Gives r store now id name (.update v (.map entries))

theorem Gives.writes {request : Request} (h : r.Gives store now id name request) :
    r.Writes store now id request := by
  cases h with
  | registers hreply => exact .registers hreply
  | updates hreply _ => exact .updates hreply

/-- Since the user was registered, no value has been accepted for the field. -/
inductive Lacks (r : Registry) (store : σ) (id name : String) (d : Definition) :
    List (Moment × Request) → Prop where
  | registered {front : List (Moment × Request)} {now : Moment} {entries : Entries}
      {warnings : List String}
      (hreply : (r.answer (r.run store front).2 now (.register (.map entries))).1 =
        .ok (.user ⟨.done .created, id, warnings⟩))
      (hdrops : Drops (checked entries) name d) :
      Lacks r store id name d (front ++ [(now, .register (.map entries))])
  | later {front : List (Moment × Request)} {now : Moment} {request : Request}
      (hlacks : Lacks r store id name d front)
      (hgives : ¬r.Gives (r.run store front).2 now id name request) :
      Lacks r store id name d (front ++ [(now, request)])

theorem Lacks.exists_drops (h : r.Lacks store id name d requests) :
    ∃ now entries, (now, .register (.map entries)) ∈ requests ∧ Drops (checked entries) name d := by
  induction h with
  | registered _ hdrops =>
      exact ⟨_, _, List.mem_append_right _ (List.mem_singleton_self _), hdrops⟩
  | later _ _ ih =>
      rcases ih with ⟨now, entries, hasked, hdrops⟩
      exact ⟨now, entries, List.mem_append_left _ hasked, hdrops⟩

/-- A field of a record holds data.  Otherwise its initial value stands for none, and no value has
been accepted for it; or it is the moniker, and its null value is a moniker itself. -/
def HoldsData (r : Registry) (store : σ) (name : String) (d : Definition)
    (requests : List (Moment × Request)) (id : String) (record : Record) : Prop :=
  record.valueOf name ≠ d.nullValue ∨
    (initialValue r.schema name = d.nullValue ∧ r.Lacks store id name d requests) ∨
    name = monikerField ∧ Grammar.isMoniker d.nullValue.toList = true

theorem HoldsData.later {record : Record} {request : Request}
    (h : r.HoldsData store name d requests id record)
    (hgives : ¬r.Gives (r.run store requests).2 now id name request) :
    r.HoldsData store name d (requests ++ [(now, request)]) id record := by
  rcases h with hdata | ⟨hnull, hlacks⟩ | hmoniker
  · exact Or.inl hdata
  · exact Or.inr (Or.inl ⟨hnull, hlacks.later hgives⟩)
  · exact Or.inr (Or.inr hmoniker)

theorem holdsData_registered (hschema : r.schema.Sound) (hvalidates : r.bypass = false)
    (hnull : ∀ d, r.schema.get? Record.idField = some d → d.nullValue = "")
    (hd : r.schema.get? name = some d) (hrequired : d.required = true) (htime : name ∉ timeFields)
    {warnings : List String}
    (hreply : (r.answer (r.run store requests).2 now (.register (.map entries))).1 =
      .ok (.user ⟨.done .created, id, warnings⟩))
    (hvalid : isUserId id = true) (hid : (supplied entries).valueOf Record.idField = id)
    (hmoniker : Grammar.isMoniker ((supplied entries).valueOf monikerField).toList = true)
    (hverdict : (r.verdict (checked entries)).success = true) :
    r.HoldsData store name d (requests ++ [(now, .register (.map entries))]) id
      (r.registered now entries) := by
  -- The id and the moniker have rules of their own.  Any other field holds what was accepted for
  -- it, or else its initial value, and then what was supplied for it was dropped.
  by_cases hname : name = Record.idField
  · subst hname
    have hvalue : (r.registered now entries).valueOf Record.idField = id := by
      rw [registered]
      exact (Record.id_stampNew _ _ _ _).trans hid
    rw [HoldsData, hvalue, hnull d hd]
    exact Or.inl (isUserId_ne_empty hvalid)
  · have hfree : name ∉ Record.readOnlyFields := by
      simp only [Record.readOnlyFields, List.mem_cons, List.not_mem_nil, or_false, not_or]
      simp only [timeFields, List.mem_cons, List.not_mem_nil, or_false, not_or] at htime
      exact ⟨hname, htime⟩
    by_cases hgiven : name = monikerField
    · subst hgiven
      by_cases hsame : (supplied entries).valueOf monikerField = d.nullValue
      · exact Or.inr (Or.inr ⟨rfl, hsame ▸ hmoniker⟩)
      · rw [HoldsData, valueOf_moniker_registered now hschema]
        exact Or.inl hsame
    · rcases valueOf_registered now hschema hvalidates hverdict hd hfree hgiven with
        hdata | ⟨hinitial, hleft⟩
      · exact Or.inl hdata
      · by_cases hlacks : initialValue r.schema name = d.nullValue
        · exact Or.inr (Or.inl ⟨hlacks, .registered hreply fun text hentry =>
            dropped_of_required hvalidates hverdict hleft hd hrequired hentry⟩)
        · rw [HoldsData, hinitial]
          exact Or.inl hlacks

/-- Every record that is shown holds data in a required field, when nothing but the null value is
read as the null value. -/
theorem holdsData_of_run {reread : String → String} {I : σ → Prop}
    (hfaithful : Faithful r.schema.fields reread I) (hschema : r.schema.Sound)
    (hvalidates : r.bypass = false)
    (hnull : ∀ d, r.schema.get? Record.idField = some d → d.nullValue = "") (hstore : I store)
    (hempty : ∀ id record, RecordStore.fetch store id ≠ .ok record)
    (hd : r.schema.get? name = some d) (hrequired : d.required = true) (htime : name ∉ timeFields)
    (hread : ∀ text, reread text = d.nullValue → text = d.nullValue)
    (requests : List (Moment × Request)) {id : String} {record : Record}
    (hshown : RecordStore.fetch (r.run store requests).2 id = .ok record) :
    r.HoldsData store name d requests id record := by
  refine (shown_of_run hfaithful hschema hstore hempty (r.HoldsData store name d)
    (fun hwrites h => h.later fun hgives => hwrites hgives.writes) ?_ ?_ ?_ requests).2
    id record hshown
  · intro front now entries id warnings hreply hvalid hid hmoniker hverdict
    exact holdsData_registered hschema hvalidates hnull hd hrequired htime hreply hvalid hid hmoniker
      hverdict
  · intro front now v entries id before hverdict hbefore
    rcases valueOf_updated now hschema hvalidates hverdict hd htime before with
      hdata | ⟨hsame, hleft⟩
    · exact Or.inl hdata
    · rw [HoldsData, hsame]
      refine hbefore.later fun hgives => ?_
      cases hgives with
      | updates _ haccepted => exact hleft haccepted
  · intro requests id record h
    rcases h with hdata | hother
    · exact Or.inl (Record.valueOf_mapTexts_ne hread hdata)
    · exact Or.inr hother

end Runs

/-- Whatever was asked of a store that was set up, every user that it shows holds data in a required
field.  Otherwise the initial value of the field stands for none, and since the user was registered
no value has been accepted for it; or it is the moniker, and its null value is a moniker itself. -/
theorem data_of_required {config : Value} {schema : Schema} {warnings : List SchemaWarning}
    (hschema : Schema.assemble config = .ok (schema, warnings)) {backend : Backend}
    (hshield : backend = .database →
      ∀ name ∈ schema.fields, ColumnName.unshield name.toList = name.toList)
    (hnames : backend = .yaml → ∀ name ∈ schema.fields, Documents.IsFieldName name)
    (hr : r.schema = schema) (hvalidates : r.bypass = false) {m : Mounted Store}
    (hsetup : m.IsSetUp backend schema) {requests : List (Moment × Request)} {id : String}
    {user : Record} (hshown : RecordStore.fetch (r.run m requests).2 id = .ok user) {name : String}
    {d : Definition} (hd : schema.get? name = some d) (hrequired : d.required = true)
    (htime : name ∉ timeFields)
    (hread : ∀ text, backend.reread text = d.nullValue → text = d.nullValue) :
    user.valueOf name ≠ d.nullValue ∨
      (initialValue schema name = d.nullValue ∧ r.Lacks m id name d requests) ∨
      name = monikerField ∧ Grammar.isMoniker d.nullValue.toList = true := by
  subst hr
  have hsound := Schema.assemble_sound hschema
  have hnull : ∀ d, r.schema.get? Record.idField = some d → d.nullValue = "" := by
    have hcatalog : ∀ d, (Catalog.core ++ Catalog.system).lookup Record.idField = some d →
        d.nullValue = "" := by
      intro d hd
      cases hd
      decide
    intro d hd
    rw [Schema.get?_of_protected hschema (by decide)] at hd
    exact hcatalog d hd
  have hempty := fetch_ne_ok_of_isSetUp hsound hshield hsetup
  have hwhole : ShowsWhole r.schema backend m :=
    ⟨(Mounted.opened_of_isSetUp hsound hshield hsetup).1, Mounted.backend_of_isSetUp hsetup,
      fun id shown hshown => absurd hshown (hempty id shown)⟩
  exact holdsData_of_run (faithful_mounted hsound hnames) hsound hvalidates hnull hwhole hempty hd
    hrequired htime hread requests hshown

/-- A setup that requires an address, but takes no offence at one that is none. -/
def mailSetup : Value :=
  .map [("include_standard_fields", .str "email"),
    ("field_overrides", .list [.map [("field_name", .str "email"), ("required", .bool true),
      ("must_validate", .bool false)]])]

def mailRegistry : Registry where
  manifest := { backend := "", state := [], schema := .ofSetup mailSetup }

/-- A user is registered with an address. -/
def mailed (address : String) : List (Moment × Request) :=
  [(0, .register (.map [("user_id", .str "ada"), ("moniker", .str "Ada"),
    ("email", .str address)]))]

/-- A user comes with an address, and the attempt to take it away is refused. -/
def mailedTwice : List (Moment × Request) :=
  mailed "ada@example.org" ++ [(60, .update (.str "ada") (.map [("email", .str " ")]))]

theorem isIdentifier_mailSetup :
    ∀ name ∈ mailRegistry.schema.fields, Shape.isIdentifier name.toList = true := by
  decide +kernel

theorem assemble_mailSetup :
    ∃ warnings, Schema.assemble mailSetup = .ok (mailRegistry.schema, warnings) :=
  Schema.assemble_ofSetup (by decide +kernel)

theorem exists_isSetUp_mailSetup (backend : Backend) :
    ∃ m : Mounted Store, m.IsSetUp backend mailRegistry.schema := by
  have hprepared : ((backend.prepare (.ofText "") mailRegistry.schema [] 0).run {}).1.isOk = true := by
    cases backend <;> decide +kernel
  rcases assemble_mailSetup with ⟨warnings, hassemble⟩
  exact Mounted.exists_isSetUp (Schema.assemble_sound hassemble)
    (fun _ name hname => ColumnName.unshield_of_isIdentifier (isIdentifier_mailSetup name hname))
    Tree.isSound_empty rfl hprepared

theorem email_mailSetup :
    (mailRegistry.schema.get? "email").map (fun d => (d.required, d.nullValue,
        Policy.ruleValue d "email" "ada@example.org")) =
      some (true, "", .keep "ada@example.org") := by
  decide +kernel

/-- All that is kept of the user meanwhile is read back. -/
theorem readsBack_mailedTwice {front : List (Moment × Request)} (hfront : front <+: mailedTwice)
    {record : Record}
    (hrecord : record ∈ (mailRegistry.run (Book.mk mailRegistry.schema.fields []) front).2.records) :
    Documents.ReadsBack record := by
  have hall : ∀ front ∈ mailedTwice.inits, ∀ record ∈
      (mailRegistry.run (Book.mk mailRegistry.schema.fields []) front).2.records,
      record ≠ [] ∧ (∀ name ∈ Entries.keys record, name.length ≤ 102 ∧ Yaml.IsFaithful name) ∧
        (Entries.keys record).Nodup ∧ ∀ entry ∈ record, Yaml.IsFaithful entry.2 := by
    decide +kernel
  rcases hall front ((List.mem_inits front mailedTwice).mpr hfront) record hrecord with
    ⟨hne, hnames, hnodup, htexts⟩
  exact Documents.readsBack_of_isFaithful hne
    (fun name hname => Documents.isFieldName_of_length (hnames name hname).1 (hnames name hname).2)
    hnodup htexts

theorem data_of_required_of_mailed :
    ∃ (m : Mounted Store) (user : Record), m.IsSetUp .yaml mailRegistry.schema ∧
      RecordStore.fetch (mailRegistry.run m mailedTwice).2 "ada" = .ok user ∧
      user.valueOf "email" ≠ "" := by
  rcases assemble_mailSetup with ⟨warnings, hassemble⟩
  rcases exists_isSetUp_mailSetup .yaml with ⟨m, hsetup⟩
  have hfetch := fetch_run_of_isSetUp hsetup (Schema.assemble_sound hassemble) nofun nofun
    (affords_of_yaml (Mounted.backend_of_isSetUp hsetup) fun _ hfront _ => readsBack_mailedTwice hfront)
    "ada"
  have hfound : (RecordStore.fetch
      (mailRegistry.run (Book.mk mailRegistry.schema.fields []) mailedTwice).2 "ada").isOk = true := by
    decide +kernel
  rw [← hfetch] at hfound
  have hnames : ∀ name ∈ mailRegistry.schema.fields, Documents.IsFieldName name := by
    have hall : ∀ name ∈ mailRegistry.schema.fields, name.length ≤ 102 ∧ Yaml.IsFaithful name := by
      decide +kernel
    exact fun name hname => Documents.isFieldName_of_length (hall name hname).1 (hall name hname).2
  cases hshown : RecordStore.fetch (mailRegistry.run m mailedTwice).2 "ada" with
  | error failure =>
      rw [hshown] at hfound
      cases hfound
  | ok user =>
      rcases Option.map_eq_some_iff.mp email_mailSetup with ⟨d, hd, hattributes⟩
      rw [Prod.mk.injEq, Prod.mk.injEq] at hattributes
      rcases hattributes with ⟨hrequired, hnull, hkeep⟩
      have hread : ∀ text, Backend.yaml.reread text = d.nullValue → text = d.nullValue := by
        rw [hnull]
        exact fun text => Yaml.eq_of_rereadText_eq nofun
      have hshield : Backend.yaml = .database → ∀ name ∈ mailRegistry.schema.fields,
          ColumnName.unshield name.toList = name.toList := nofun
      rcases data_of_required hassemble hshield (fun _ => hnames) rfl rfl hsetup hshown hd hrequired
        (by decide) hread with hdata | ⟨-, hlacks⟩ | ⟨h, -⟩
      · exact ⟨m, user, hsetup, hshown, hnull ▸ hdata⟩
      · rcases hlacks.exists_drops with ⟨now, entries, hasked, hdrops⟩
        simp only [mailedTwice, mailed, List.cons_append, List.nil_append, List.mem_cons,
          Prod.mk.injEq, Request.register.injEq, Value.map.injEq, reduceCtorEq, List.not_mem_nil,
          and_false, or_false] at hasked
        rw [hasked.2] at hdrops
        rcases (hdrops "ada@example.org" (by decide +kernel)).2 with ⟨warning, hwarn⟩
        rw [hkeep] at hwarn
        cases hwarn
      · exact absurd h (by decide)

/-- A required field is empty when its value failed the check and the field takes no offence at
that. -/
theorem not_data_of_required_of_dropped :
    ¬∀ (config : Value) (warnings : List SchemaWarning) (r : Registry) (backend : Backend)
      (m : Mounted Store) (requests : List (Moment × Request)) (id : String) (user : Record)
      (name : String) (d : Definition),
      Schema.assemble config = .ok (r.schema, warnings) → r.bypass = false →
      m.IsSetUp backend r.schema → RecordStore.fetch (r.run m requests).2 id = .ok user →
      r.schema.get? name = some d → d.required = true → name ∉ timeFields →
      user.valueOf name ≠ d.nullValue := by
  intro hdata
  rcases assemble_mailSetup with ⟨warnings, hassemble⟩
  rcases exists_isSetUp_mailSetup .database with ⟨m, hsetup⟩
  have haffords : mailRegistry.Affords m.store ⟨mailRegistry.schema.fields, []⟩ (mailed "nope") := by
    refine ⟨fun front hfront record hrecord => admits_of_isSetUp hsetup record, fun entry hentry => ?_⟩
    rw [List.mem_singleton.mp hentry]
    exact trivial
  have hfetch := fetch_run_of_isSetUp hsetup (Schema.assemble_sound hassemble)
    (fun _ name hname => ColumnName.unshield_of_isIdentifier (isIdentifier_mailSetup name hname))
    (fun h => nomatch h) haffords "ada"
  have hstored : (RecordStore.fetch
      (mailRegistry.run (Book.mk mailRegistry.schema.fields []) (mailed "nope")).2
        "ada").toOption.map (·.valueOf "email") = some "" := by
    decide +kernel
  rw [← hfetch] at hstored
  cases hshown : RecordStore.fetch (mailRegistry.run m (mailed "nope")).2 "ada" with
  | error failure =>
      rw [hshown] at hstored
      cases hstored
  | ok user =>
      rw [hshown] at hstored
      rcases Option.map_eq_some_iff.mp email_mailSetup with ⟨d, hd, hattributes⟩
      rw [Prod.mk.injEq, Prod.mk.injEq] at hattributes
      refine hdata mailSetup warnings mailRegistry .database m (mailed "nope") "ada" user "email" d
        hassemble rfl hsetup hshown hd hattributes.1 (by decide) ?_
      rw [hattributes.2.1]
      exact Option.some.inj hstored

end Registry
end Roster
