import Roster.Proofs.Check.Policy
import Roster.Proofs.Registry.Interchange
import Roster.Proofs.Registry.Reached

/-!
# What a success without warnings means

A request that succeeds without warnings was applied: the user is shown with every value that was
supplied.  A value that stands for no data is passed over in silence, so that a new user starts out
with the default instead, and a changed one keeps what was there.
-/

namespace Roster
namespace Registry

variable {r : Registry}

/-- The text stands for no data in the field. -/
def isNullIn (schema : Schema) (name text : String) : Bool :=
  (schema.get? name).any fun d => text == d.nullValue

/-!
## Supplied data
-/

theorem keys_clean (entries : Entries) : Entries.keys (clean entries) = Entries.keys entries := by
  rw [clean, Entries.keys, Entries.keys, List.map_map]
  rfl

theorem mem_clean {entries : Entries} {name : String} {v : Value} (h : (name, v) ∈ entries) :
    (name, Text.strip v.stored) ∈ clean entries :=
  List.mem_map.mpr ⟨(name, v), h, rfl⟩

theorem mem_without {fields : List String} {data : Record} {name text : String}
    (h : (name, text) ∈ data) (hname : name ∉ fields) : (name, text) ∈ without fields data := by
  refine List.mem_filter.mpr ⟨h, ?_⟩
  rw [Bool.not_eq_true', Bool.eq_false_iff, Ne, List.contains_iff_mem]
  exact hname

theorem keys_without_nodup {fields : List String} {data : Record}
    (h : (Entries.keys data).Nodup) : (Entries.keys (without fields data)).Nodup :=
  h.sublist (List.Sublist.map Prod.fst List.filter_sublist)

theorem valueOf_of_mem {data : Record} (hnodup : (Entries.keys data).Nodup) {name text : String}
    (h : (name, text) ∈ data) : data.valueOf name = text := by
  rw [Record.valueOf, Entries.lookup_of_mem hnodup h]
  rfl

def submission (data : Record) : Submission :=
  data.map fun (name, text) => (name, some text)

theorem keys_submission (data : Record) : Entries.keys (submission data) = Entries.keys data := by
  rw [submission, Entries.keys, Entries.keys, List.map_map]
  rfl

theorem verdict_of_validating (h : r.bypass = false) (data : Record) :
    r.verdict data = Policy.check r.schema (submission data) := by
  rw [verdict, h]
  rfl

theorem nodup_keys_accepted {data : Record} (hnodup : (Entries.keys data).Nodup)
    (hverdict : (r.verdict data).success = true) :
    (Entries.keys (r.verdict data).accepted).Nodup := by
  cases hbypass : r.bypass with
  | true =>
      rw [verdict, hbypass]
      exact hnodup
  | false =>
      rw [verdict_of_validating hbypass] at hverdict ⊢
      rw [(Policy.check_of_success hverdict).1]
      rw [← keys_submission] at hnodup
      exact hnodup.sublist (Entries.keys_filterMap_sublist Policy.key_of_keptOf _)

theorem lookup_storable {name : String} (hhas : r.schema.has name = true)
    (hfree : name ∉ Record.readOnlyFields) (data : Record) :
    (r.storable data).lookup name = data.lookup name := by
  have hfilter := Entries.lookup_filter
    (p := fun key => r.schema.has key && !Record.readOnlyFields.contains key) data name
  have hkept : (r.schema.has name && !Record.readOnlyFields.contains name) = true := by
    rw [hhas, Bool.true_and, Bool.not_eq_true', Bool.eq_false_iff, Ne, List.contains_iff_mem]
    exact hfree
  rw [storable, hfilter, if_pos hkept]

/-- What reaches the store of data that passed without warnings. -/
theorem storable_of_no_warnings (hvalidates : r.bypass = false) {data : Record}
    (hnodup : (Entries.keys data).Nodup) (hsuccess : (r.verdict data).success = true)
    (hwarnings : (r.verdict data).warnings = []) :
    (Entries.keys (r.storable (r.verdict data).accepted)).Nodup ∧
      ∀ name text, (name, text) ∈ data → name ∉ Record.readOnlyFields →
        r.schema.has name = true ∧
          (r.storable (r.verdict data).accepted).lookup name =
            if isNullIn r.schema name text then none else some text := by
  have haccepted := nodup_keys_accepted hnodup hsuccess
  constructor
  · exact haccepted.sublist (List.Sublist.map Prod.fst List.filter_sublist)
  · intro name text hentry hname
    rw [verdict_of_validating hvalidates] at hsuccess hwarnings ⊢
    have hkeys : (Entries.keys (submission data)).Nodup := by
      rw [keys_submission]
      exact hnodup
    have hsubmitted : (name, some text) ∈ submission data :=
      List.mem_map.mpr ⟨(name, text), hentry, rfl⟩
    rcases Policy.keptOf_of_no_warnings hsuccess hwarnings hsubmitted with ⟨d, hd, hkept⟩
    have hhas : r.schema.has name = true := by
      rw [Schema.has, hd]
      rfl
    refine ⟨hhas, ?_⟩
    have hnull : isNullIn r.schema name text = (text == d.nullValue) := by
      rw [isNullIn, hd]
      rfl
    rw [lookup_storable hhas hname, (Policy.check_of_success hsuccess).1,
      Entries.lookup_filterMap Policy.key_of_keptOf hkeys hsubmitted, hkept, hnull]
    by_cases htext : text = d.nullValue
    · simp [htext]
    · simp [htext]

/-!
## Records
-/

/-- The record of a user who is registered. -/
def registered (r : Registry) (now : Moment) (entries : Entries) : Record :=
  let data := without timeFields (clean entries)
  let id := data.valueOf Record.idField
  (r.newRecord id (data.valueOf monikerField)
    (r.verdict (without [Record.idField, monikerField] data)).accepted).stampNew
      r.schema.fields now id

/-- The record of a user who is changed. -/
def updated (r : Registry) (now : Moment) (entries : Entries) (before : Record) : Record :=
  Entries.setAll before ((r.storable
    (r.verdict (without Record.readOnlyFields (clean entries))).accepted).stampChanges
      r.schema.fields now)

theorem mem_accepted_of_stampChanges {now : Moment} {entries : Entries} {name text : String}
    (hmodified : name ≠ Record.modifiedField)
    (h : ((r.storable (r.verdict (without Record.readOnlyFields (clean entries))).accepted).stampChanges
      r.schema.fields now).reverse.lookup name = some text) :
    (name, text) ∈ (r.verdict (without Record.readOnlyFields (clean entries))).accepted := by
  rcases Entries.mem_set (List.mem_reverse.mp (Entries.mem_of_lookup h)) with hstamp | hchange
  · cases hstamp
    exact absurd rfl hmodified
  · exact List.mem_of_mem_filter (List.mem_of_mem_filter (List.mem_of_mem_filter hchange))

theorem mem_fields_of_has (h : r.schema.Sound) {name : String} (hname : r.schema.has name = true) :
    name ∈ r.schema.fields :=
  (h.has_iff name).mp hname

theorem mem_fields_of_get? (h : r.schema.Sound) {name : String} {d : Definition}
    (hd : r.schema.get? name = some d) : name ∈ r.schema.fields := by
  apply mem_fields_of_has h
  rw [Schema.has, hd]
  rfl

theorem lookup_initialRecord (h : r.schema.Sound) {name : String} (hname : name ∈ r.schema.fields) :
    r.initialRecord.lookup name = some (initialValue r.schema name) := by
  have hkeys := keys_initialRecord h
  have hpairs : Entries.keys (r.schema.fields.map fun name => (name, initialValue r.schema name)) =
      r.schema.fields := by
    rw [Entries.keys, List.map_map]
    exact List.map_id _
  rw [initialRecord, Entries.setAll_nil_of_nodup (hpairs.symm ▸ h.nodup)]
  exact Entries.lookup_of_mem (hpairs.symm ▸ h.nodup) (List.mem_map.mpr ⟨name, hname, rfl⟩)

theorem lookup_newRecord (h : r.schema.Sound) {accepted : Record}
    (hnodup : (Entries.keys (r.storable accepted)).Nodup) {name : String}
    (hname : name ∈ r.schema.fields) (hid : name ≠ Record.idField) (hmoniker : name ≠ monikerField)
    (id moniker : String) :
    (r.newRecord id moniker accepted).lookup name =
      ((r.storable accepted).lookup name).or (some (initialValue r.schema name)) := by
  rw [newRecord, Entries.lookup_set, if_neg hmoniker, Entries.lookup_set, if_neg hid,
    Entries.lookup_setAll, Entries.lookup_reverse hnodup, lookup_initialRecord h hname]

theorem lookup_stampNew_of_notMem {fields : List String} {name : String} (hname : name ∈ fields)
    (hfree : name ∉ Record.readOnlyFields) (now : Moment) (id : String) (record : Record) :
    (record.stampNew fields now id).lookup name = record.lookup name := by
  rw [Record.readOnlyFields, List.mem_cons, List.mem_cons, List.mem_singleton, not_or, not_or]
    at hfree
  rcases hfree with ⟨hid, hcreated, hmodified⟩
  rw [Record.lookup_stampNew, if_neg hid, if_neg hmodified, if_neg hcreated, if_pos hname]

theorem lookup_updated {now : Moment} {changes before : Record}
    (hnodup : (Entries.keys changes).Nodup) {name : String} (hname : name ∈ r.schema.fields)
    (hfree : name ∉ Record.readOnlyFields) :
    (Entries.setAll before (changes.stampChanges r.schema.fields now)).lookup name =
      (changes.lookup name).or (before.lookup name) := by
  have hkeys : (Entries.keys (changes.stampChanges r.schema.fields now)).Nodup := by
    refine Entries.nodup_keys_set (hnodup.sublist ?_)
    exact List.Sublist.map Prod.fst (List.filter_sublist.trans List.filter_sublist)
  have hmodified : name ≠ Record.modifiedField := by
    rintro rfl
    exact hfree (by decide)
  rw [Entries.lookup_setAll, Entries.lookup_reverse hkeys, Record.lookup_stampChanges,
    if_neg hmodified, if_neg hfree, if_pos hname]

/-- What a record holds after changes that passed without warnings. -/
theorem lookup_updated_of_no_warnings (hschema : r.schema.Sound) (hvalidates : r.bypass = false)
    {entries : Entries} (hkeys : (Entries.keys entries).Nodup)
    (hverdict : (r.verdict (without Record.readOnlyFields (clean entries))).success = true)
    (hwarnings : (r.verdict (without Record.readOnlyFields (clean entries))).warnings = [])
    {name : String} {v : Value} (hentry : (name, v) ∈ entries) (hname : name ∉ Record.readOnlyFields)
    (now : Moment) (before : Record) :
    (r.updated now entries before).lookup name =
      if isNullIn r.schema name (Text.strip v.stored) = true then before.lookup name
      else some (Text.strip v.stored) := by
  have hclean : (Entries.keys (without Record.readOnlyFields (clean entries))).Nodup := by
    apply keys_without_nodup
    rw [keys_clean]
    exact hkeys
  rcases storable_of_no_warnings hvalidates hclean hverdict hwarnings with ⟨hnodup, hstorable⟩
  rcases hstorable name _ (mem_without (mem_clean hentry) hname) hname with ⟨hhas, hlookup⟩
  rw [updated, lookup_updated hnodup (mem_fields_of_has hschema hhas) hname, hlookup]
  by_cases hnull : isNullIn r.schema name (Text.strip v.stored) = true
  · rw [if_pos hnull, if_pos hnull, Option.none_or]
  · rw [if_neg hnull, if_neg hnull, Option.some_or]

/-!
## Requests
-/

theorem idOf?_of_isUserId {id : String} (h : isUserId id = true) : idOf? (.str id) = some id := by
  have hstrip : (Text.strip id != "") = true := by
    rw [bne_iff_ne, Text.strip]
    intro hempty
    exact trim_ne_nil_of_isUserId h (by simpa using congrArg String.toList hempty)
  simp [idOf?, Value.text?, hstrip]

section Applied

variable {m m' : Mounted Store} {now : Moment} {entries : Entries} {a : UserAnswer}

/-- A user who was registered without warnings is shown with what was supplied. -/
theorem shown_of_register (hschema : r.schema.Sound) (hvalidates : r.bypass = false)
    (hstands : m.Stands r.schema.fields) (hkeys : (Entries.keys entries).Nodup)
    (hrequest : r.register m now (.map entries) = .ok (a, m')) (hsuccess : a.success = true)
    (hwarnings : a.warnings = []) (hadmits : m.store.Admits (r.registered now entries)) :
    get m' (.str a.id) .null = .ok ⟨.found (r.registered now entries), a.id, []⟩ ∧
      ∀ name v, (name, v) ∈ entries → name ∉ Record.readOnlyFields →
        (r.registered now entries).lookup name = some
          (if name ≠ monikerField ∧ isNullIn r.schema name (Text.strip v.stored) = true then
            initialValue r.schema name else Text.strip v.stored) := by
  rcases register_eq_ok hrequest hsuccess with ⟨hvalid, hfree, hverdict, hinsert, rfl⟩
  dsimp only at hwarnings ⊢
  have hclean : (Entries.keys (without timeFields (clean entries))).Nodup := by
    refine keys_without_nodup ?_
    rw [keys_clean]
    exact hkeys
  constructor
  · have hfetch := (hstands.insert hvalid (keys_newRecord hschema _ _ _)
      (fetch_ne_ok_of_isStored hfree) hinsert).2.2 hadmits
    exact get_of_fetch (idOf?_of_isUserId hvalid) hfetch
  · intro name v hentry hname
    have htime : name ∉ timeFields := by
      refine fun htime => hname ?_
      have hall : ∀ field ∈ timeFields, field ∈ Record.readOnlyFields := by
        decide
      exact hall name htime
    have hid : name ≠ Record.idField := by
      rintro rfl
      exact hname (by decide)
    have hdata := mem_without (mem_clean hentry) htime
    -- The moniker is set from the data themselves; any other field holds its initial value where
    -- nothing was accepted for it.
    by_cases hmoniker : name = monikerField
    · subst hmoniker
      rw [registered, lookup_stampNew_of_notMem (hschema.core _ (by decide)) hname, newRecord,
        Entries.lookup_set, if_pos rfl, valueOf_of_mem hclean hdata, if_neg (by simp)]
    · have hrest : name ∉ [Record.idField, monikerField] := by
        simp [hid, hmoniker]
      rcases storable_of_no_warnings hvalidates (keys_without_nodup hclean) hverdict hwarnings with
        ⟨hnodup, hstorable⟩
      rcases hstorable name _ (mem_without hdata hrest) hname with ⟨hhas, hlookup⟩
      have hfield := mem_fields_of_has hschema hhas
      rw [registered, lookup_stampNew_of_notMem hfield hname,
        lookup_newRecord hschema hnodup hfield hid hmoniker, hlookup]
      by_cases hnull : isNullIn r.schema name (Text.strip v.stored) = true
      · rw [if_pos hnull, if_pos ⟨hmoniker, hnull⟩, Option.none_or]
      · rw [if_neg hnull, if_neg fun h => hnull h.2, Option.some_or]

/-- A user who was changed without warnings is shown with what was supplied. -/
theorem shown_of_update (hschema : r.schema.Sound) (hvalidates : r.bypass = false)
    (hstands : m.Stands r.schema.fields) (hkeys : (Entries.keys entries).Nodup) {id : Value}
    (hrequest : r.update m now id (.map entries) = .ok (a, m')) (hsuccess : a.success = true)
    (hwarnings : a.warnings = []) :
    ∃ before, get m id .null = .ok ⟨.found before, a.id, []⟩ ∧
      (m.store.Admits (r.updated now entries before) →
        get m' id .null = .ok ⟨.found (r.updated now entries before), a.id, []⟩) ∧
      ∀ name v, (name, v) ∈ entries → name ∉ Record.readOnlyFields →
        (r.updated now entries before).lookup name =
          if isNullIn r.schema name (Text.strip v.stored) = true then before.lookup name
          else some (Text.strip v.stored) := by
  rcases update_eq_ok hrequest hsuccess with ⟨known, hid, hstored, hverdict, hupdate, rfl⟩
  dsimp only at hwarnings ⊢
  rcases isStored_eq_true_iff.mp hstored with ⟨before, hbefore⟩
  refine ⟨before, get_of_fetch hid hbefore, fun hadmits => ?_, ?_⟩
  · exact get_of_fetch hid ((hstands.update hbefore hupdate).2.2 hadmits)
  · intro name v hentry hname
    exact lookup_updated_of_no_warnings hschema hvalidates hkeys hverdict hwarnings hentry hname
      _ before

end Applied

/-- Whatever a store was asked for before: when a user is registered or changed with success and
without warnings, the user is shown afterwards with every supplied value of the fields that callers
can change, as long as the store can read back the record that it was given.  A value that stands
for no data is passed over: a new user starts out with the default then, and a changed one keeps
what was there. -/
theorem applied_of_no_warnings {config : Value} {schema : Schema} {warnings : List SchemaWarning}
    (hschema : Schema.assemble config = .ok (schema, warnings)) {backend : Backend}
    (hshield : backend = .database →
      ∀ name ∈ schema.fields, ColumnName.unshield name.toList = name.toList)
    (hr : r.schema = schema) (hvalidates : r.bypass = false) {m : Mounted Store}
    (hreached : Mounted.Reached backend schema m) (now : Moment) {entries : Entries}
    (hkeys : (Entries.keys entries).Nodup) {a : UserAnswer} (hsuccess : a.success = true)
    (hwarnings : a.warnings = []) :
    ((r.answer m now (.register (.map entries))).1 = .ok (.user a) →
      m.store.Admits (r.registered now entries) →
      ∃ user, get (r.answer m now (.register (.map entries))).2 (.str a.id) .null =
          .ok ⟨.found user, a.id, []⟩ ∧
        ∀ name v, (name, v) ∈ entries → name ∉ Record.readOnlyFields →
          user.lookup name = some
            (if name ≠ monikerField ∧ isNullIn schema name (Text.strip v.stored) = true then
              initialValue schema name else Text.strip v.stored)) ∧
    ∀ id, (r.answer m now (.update id (.map entries))).1 = .ok (.user a) →
      ∃ before, get m id .null = .ok ⟨.found before, a.id, []⟩ ∧
        (m.store.Admits (r.updated now entries before) →
          ∃ user, get (r.answer m now (.update id (.map entries))).2 id .null =
              .ok ⟨.found user, a.id, []⟩ ∧
            ∀ name v, (name, v) ∈ entries → name ∉ Record.readOnlyFields →
              user.lookup name =
                if isNullIn schema name (Text.strip v.stored) = true then before.lookup name
                else some (Text.strip v.stored)) := by
  subst hr
  have hsound := Schema.assemble_sound hschema
  have hstands := hreached.stands hsound hshield
  constructor
  · intro hreply hadmits
    have hrequest := of_conclude_eq hreply
    exact ⟨r.registered now entries, shown_of_register hsound hvalidates hstands hkeys hrequest
      hsuccess hwarnings hadmits⟩
  · intro id hreply
    have hrequest := of_conclude_eq hreply
    rcases shown_of_update hsound hvalidates hstands hkeys hrequest hsuccess hwarnings with
      ⟨before, hbefore, hget, hlookup⟩
    exact ⟨before, hbefore, fun hadmits => ⟨r.updated now entries before, hget hadmits, hlookup⟩⟩

def noted : Entries :=
  [("user_id", .str "ada"), ("moniker", .str "Ada"), ("note", .str "x")]

theorem admits_of_database {m : Mounted Store} (h : m.store.backend = .database) (record : Record) :
    m.store.Admits record := by
  cases hstore : m.store with
  | table s => exact trivial
  | _ =>
      rw [hstore] at h
      cases h

theorem admits_of_isSetUp {m : Mounted Store} {schema : Schema} (h : m.IsSetUp .database schema)
    (record : Record) : m.store.Admits record :=
  admits_of_database (Mounted.backend_of_isSetUp h) record

/-- A user is registered with a note, the note is taken away, and the user is looked at. -/
def clearing : List (Moment × Request) :=
  [(0, .register (.map noted)), (0, .update (.str "ada") (.map [("note", .str "")])),
    (0, .get (.str "ada") .null)]

theorem replies_of_clearing {m : Mounted Store} (h : m.IsSetUp .database noteSchema) :
    (noteRegistry.run m clearing).1 =
      [.ok (.user ⟨.done .created, "ada", []⟩), .ok (.user ⟨.done .updated, "ada", []⟩),
        .ok (.user ⟨.found (noteRegistry.registered 0 noted), "ada", []⟩)] := by
  have hshield := fun name hname =>
    ColumnName.unshield_of_isIdentifier (isIdentifier_noteSchema name hname)
  have hheader : Delimited.Fits noteSchema.fields := by
    have hall : ∀ cell ∈ noteSchema.fields, cell.toList.length ≤ Delimited.maxCell := by
      decide +kernel
    exact hall
  have hholds := (Mounted.opened_of_isSetUp sound_noteSchema (fun _ => hshield) h).2 fun _ => hheader
  have hbook := Book.sound_empty sound_noteSchema.nodup sound_noteSchema.known
  have haffords : noteRegistry.Affords m.store ⟨noteSchema.fields, []⟩ clearing := by
    refine ⟨fun front hfront record hrecord => admits_of_isSetUp h record, fun entry hentry => ?_⟩
    simp only [clearing, List.mem_cons, List.not_mem_nil, or_false] at hentry
    rcases hentry with rfl | rfl | rfl
    · exact trivial
    · exact trivial
    · exact trivial
  have hschema : noteRegistry.schema.Sound := sound_noteSchema
  have hrun := (run_eq_of_holds hholds hbook hschema rfl haffords).1
  rw [hrun]
  decide +kernel

theorem applied_of_no_warnings_of_noted :
    ∃ (m : Mounted Store) (user : Record), Mounted.Reached .database noteSchema m ∧
      get (noteRegistry.answer m 0 (.register (.map noted))).2 (.str "ada") .null =
        .ok ⟨.found user, "ada", []⟩ ∧ user.lookup "note" = some "x" := by
  rcases assemble_noteSetup with ⟨warnings, hassemble⟩
  rcases exists_isSetUp_noteSchema .database with ⟨m, hsetup⟩
  have hreplies := replies_of_clearing hsetup
  rw [clearing, run_cons, List.cons.injEq] at hreplies
  rcases (applied_of_no_warnings hassemble
    (fun _ name hname => ColumnName.unshield_of_isIdentifier (isIdentifier_noteSchema name hname))
    rfl rfl (.setUp hsetup) 0 (by decide) rfl rfl).1 hreplies.1
    (admits_of_isSetUp hsetup (noteRegistry.registered 0 noted)) with ⟨user, hget, hlookup⟩
  have hnote := hlookup "note" (.str "x") (by simp [noted]) (by decide)
  have hnotNull : isNullIn noteSchema "note" (Text.strip (Value.str "x").stored) = false := by
    decide +kernel
  rw [if_neg (by simp [hnotNull])] at hnote
  exact ⟨m, user, .setUp hsetup, hget, hnote⟩

/-- Taking a note away succeeds without warnings, but the note is still there. -/
theorem not_applied_of_null_value :
    ¬∀ (config : Value) (warnings : List SchemaWarning) (r : Registry) (m : Mounted Store)
      (now : Moment) (id : Value) (entries : Entries) (a : UserAnswer) (user : Record),
      Schema.assemble config = .ok (r.schema, warnings) → r.bypass = false →
      Mounted.Reached .database r.schema m →
      (r.answer m now (.update id (.map entries))).1 = .ok (.user a) → a.success = true →
      a.warnings = [] →
      get (r.answer m now (.update id (.map entries))).2 id .null = .ok ⟨.found user, a.id, []⟩ →
      ∀ name v, (name, v) ∈ entries → name ∉ Record.readOnlyFields →
        user.lookup name = some (Text.strip v.stored) := by
  intro happlied
  rcases assemble_noteSetup with ⟨warnings, hassemble⟩
  rcases exists_isSetUp_noteSchema .database with ⟨m, hsetup⟩
  have hreplies := replies_of_clearing hsetup
  rw [clearing, run_cons, run_cons, run_cons, run_nil, List.cons.injEq, List.cons.injEq,
    List.cons.injEq] at hreplies
  rcases hreplies with ⟨-, hupdate, hget, -⟩
  have hreached := (Mounted.Reached.setUp hsetup).asked noteRegistry rfl 0 (.register (.map noted))
  rw [answer] at hget
  rcases Steps.map_eq_ok.mp hget with ⟨shown, hshown, heq⟩
  cases heq
  have hnote := happlied noteSetup warnings noteRegistry _ 0 (.str "ada") [("note", .str "")] _ _
    hassemble rfl hreached hupdate rfl rfl hshown "note" (.str "") (by simp) (by decide)
  have hkept : (noteRegistry.registered 0 noted).lookup "note" = some "x" := by
    decide +kernel
  rw [hkept] at hnote
  exact absurd hnote (by decide +kernel)

end Registry
end Roster
