import Roster.Proofs.Check.Verdicts
import Roster.Proofs.Registry.WellFormed
import Roster.Proofs.Text.Trimming

/-!
# Writing a record back

What a user is shown with can be supplied again as changes of the same user.  Values that were
accepted once come back as they are.  What a user started out with was never checked, so it comes
back only if the check lets it pass.
-/

namespace Roster
namespace Registry

variable {r : Registry} {now : Moment} {entries : Entries} {schema : Schema} {user : Record}
  {name text : String} {d : Definition}

/-!
## Values that come back
-/

/-- The value of a field can be supplied for it once more and stays what it is.  It is passed over,
because it stands for no data in a field that may go without, or it is accepted. -/
def ComesBack (d : Definition) (value : String) : Prop :=
  (Text.strip value = d.nullValue ∧ d.required = false) ∨
    (Text.strip value = value ∧ value ≠ d.nullValue ∧
      ∃ kind ∈ d.validator?, kind.accepts d value = true)

instance (d : Definition) (value : String) : Decidable (ComesBack d value) :=
  inferInstanceAs (Decidable (_ ∨ _))

theorem ComesBack.rule_eq {value : String} (h : ComesBack d value)
    (hd : schema.get? name = some d) :
    Policy.rule schema name (some (Text.strip value)) = .skip ∨
      Policy.rule schema name (some (Text.strip value)) = .keep value := by
  rcases h with ⟨hnull, hrequired⟩ | ⟨htrimmed, hdata, kind, hkind, haccepts⟩
  · left
    rw [Policy.rule_of_vacant hd (Or.inr (congrArg some hnull)), hrequired,
      if_neg Bool.false_ne_true]
  · right
    rw [htrimmed]
    exact (Policy.Outcome.passing hd hdata hkind haccepts).rule_eq

/-- The record can be written back: a value that nobody supplied comes back, and so does the moniker
if it has another validator than its own. -/
structure IsFit (schema : Schema) (user : Record) : Prop where
  initial : ∀ name d, schema.get? name = some d → name ∉ Record.readOnlyFields →
    name ≠ monikerField → user.valueOf name = initialValue schema name →
    ComesBack d (user.valueOf name)
  moniker : ∀ d, schema.get? monikerField = some d →
    (d.validator? = some .moniker ∧ user.valueOf monikerField ≠ d.nullValue) ∨
      ComesBack d (user.valueOf monikerField)

theorem isFit_of_comesBack (h : ∀ name d, schema.get? name = some d →
    name ∉ Record.readOnlyFields → ComesBack d (user.valueOf name)) : IsFit schema user where
  initial := fun name d hd hfree _ _ => h name d hd hfree
  moniker := fun d hd => Or.inr (h monikerField d hd (by decide))

/-!
## Records without blanks at the ends
-/

/-- A field holds what it started out with, or a text that has no blanks at its ends. -/
def IsTrimmed (schema : Schema) (record : Record) : Prop :=
  ∀ name ∈ schema.fields, name ∉ Record.readOnlyFields →
    (name ≠ monikerField ∧ record.valueOf name = initialValue schema name) ∨
      Text.strip (record.valueOf name) = record.valueOf name

theorem strip_of_mem_clean (h : (name, text) ∈ clean entries) : Text.strip text = text := by
  rcases List.mem_map.mp h with ⟨⟨key, v⟩, -, hentry⟩
  cases hentry
  exact Text.strip_strip v.stored

theorem strip_valueOf_supplied (name : String) :
    Text.strip ((supplied entries).valueOf name) = (supplied entries).valueOf name := by
  rw [Record.valueOf]
  cases hfound : (supplied entries).lookup name with
  | none => decide
  | some text => exact strip_of_mem_clean (List.mem_of_mem_filter (Entries.mem_of_lookup hfound))

theorem mem_of_accepted (hvalidates : r.bypass = false) {data : Record}
    (hverdict : (r.verdict data).success = true)
    (haccepted : (name, text) ∈ (r.verdict data).accepted) : (name, text) ∈ data := by
  rw [verdict_of_validating hvalidates] at hverdict haccepted
  rw [(Policy.check_of_success hverdict).1] at haccepted
  rcases List.mem_filterMap.mp haccepted with ⟨entry, hentry, hkept⟩
  rcases List.mem_map.mp hentry with ⟨supplied, hsupplied, rfl⟩
  rcases Policy.keptOf_eq_some hkept with ⟨hname, hrule⟩
  rcases Policy.rule_eq_keep hrule with ⟨d, kind, -, htext, -⟩
  obtain rfl : (name, text) = supplied := Prod.ext hname (Option.some.inj htext).symm
  exact hsupplied

theorem isTrimmed_registered (now : Moment) (hschema : r.schema.Sound)
    (hvalidates : r.bypass = false) (hverdict : (r.verdict (checked entries)).success = true) :
    IsTrimmed r.schema (r.registered now entries) := by
  intro name hname hfree
  by_cases hmoniker : name = monikerField
  · right
    rw [hmoniker, valueOf_moniker_registered now hschema]
    exact strip_valueOf_supplied monikerField
  · rcases accepted_or_initial now hschema hname hfree hmoniker with hinitial | haccepted
    · exact Or.inl ⟨hmoniker, hinitial⟩
    · have hsupplied := mem_of_accepted hvalidates hverdict haccepted
      exact Or.inr (strip_of_mem_clean (List.mem_of_mem_filter (List.mem_of_mem_filter hsupplied)))

theorem ne_modifiedField (hfree : name ∉ Record.readOnlyFields) : name ≠ Record.modifiedField := by
  rintro rfl
  exact hfree (by decide)

theorem IsTrimmed.updated {before : Record} (h : IsTrimmed r.schema before) (now : Moment)
    (hvalidates : r.bypass = false)
    (hverdict : (r.verdict (checkedChanges entries)).success = true) :
    IsTrimmed r.schema (r.updated now entries before) := by
  intro name hname hfree
  rcases accepted_or_before now entries (ne_modifiedField hfree) before with hsame | haccepted
  · rw [hsame]
    exact h name hname hfree
  · have hsupplied := mem_of_accepted hvalidates hverdict haccepted
    exact Or.inr (strip_of_mem_clean (List.mem_of_mem_filter hsupplied))

section Runs

variable {σ : Type} [RecordStore σ] {Keeps : σ → Book → Prop} {store : σ} {b b' : Book} {id : String}

theorem Shifts.isTrimmed {request : Request} {reply : Except Fault Reply}
    (h : Shifts r b now request reply b') (hschema : r.schema.Sound) (hvalidates : r.bypass = false)
    (hall : ∀ record ∈ b.records, IsTrimmed r.schema record) :
    ∀ record ∈ b'.records, IsTrimmed r.schema record := by
  cases h with
  | stays reply hreply => exact hall
  | registers hid hmoniker hverdict hwrote =>
      exact (hwrote.forall_iff hall).mpr (isTrimmed_registered now hschema hvalidates hverdict)
  | updates hid hverdict hfound hwrote =>
      have hold := hall _ (List.mem_of_find?_eq_some hfound)
      exact (hwrote.forall_iff hall).mpr (hold.updated now hvalidates hverdict)
  | deletes hid =>
      intro record hrecord
      exact hall record (List.mem_of_mem_filter hrecord)

end Runs

theorem IsFit.comesBack (h : IsFit schema user) (hwell : IsWellFormed schema user)
    (htrimmed : IsTrimmed schema user) (hname : name ∈ schema.fields)
    (hfree : name ∉ Record.readOnlyFields) (hd : schema.get? name = some d) :
    ComesBack d (user.valueOf name) := by
  have haccepted : schema.Accepts name (user.valueOf name) →
      Text.strip (user.valueOf name) = user.valueOf name → ComesBack d (user.valueOf name) := by
    rintro ⟨d', kind, hd', hdata, hkind, haccepts⟩ hstrip
    rw [hd] at hd'
    cases hd'
    exact Or.inr ⟨hstrip, hdata, kind, hkind, haccepts⟩
  by_cases hmoniker : name = monikerField
  · subst hmoniker
    rcases h.moniker d hd with ⟨hkind, hdata⟩ | hback
    · have hstrip := (htrimmed _ hname hfree).resolve_left fun hinitial => hinitial.1 rfl
      rcases hwell.moniker with hform | hpassed
      · exact Or.inr ⟨hstrip, hdata, .moniker, hkind, hform⟩
      · exact haccepted hpassed hstrip
    · exact hback
  · by_cases hinitial : user.valueOf name = initialValue schema name
    · exact h.initial name d hd hfree hmoniker hinitial
    · have hpassed := (hwell.fields name hname hfree hmoniker).resolve_left hinitial
      have hstrip := (htrimmed name hname hfree).resolve_left fun held => hinitial held.2
      exact haccepted hpassed hstrip

/-!
## The record as changes
-/

theorem mem_ownChanges_iff (hfull : Entries.keys user = schema.fields) (hschema : schema.Sound) :
    (name, text) ∈ checkedChanges (Policy.asEntries user) ↔
      name ∈ schema.fields ∧ name ∉ Record.readOnlyFields ∧ text = Text.strip (user.valueOf name) := by
  have hnodup : (Entries.keys user).Nodup := hfull ▸ hschema.nodup
  have hclean : clean (Policy.asEntries user) =
      user.map fun entry => (entry.1, Text.strip entry.2) := by
    rw [clean, Policy.asEntries, List.map_map]
    rfl
  rw [checkedChanges, without, List.mem_filter, hclean, List.mem_map, Bool.not_eq_true',
    Bool.eq_false_iff, Ne, List.contains_iff_mem, ← hfull]
  constructor
  · rintro ⟨⟨entry, hentry, hsame⟩, hfree⟩
    cases hsame
    refine ⟨List.mem_map_of_mem hentry, hfree, ?_⟩
    rw [valueOf_of_mem hnodup hentry]
  · rintro ⟨hname, hfree, rfl⟩
    rcases List.mem_map.mp hname with ⟨entry, hentry, rfl⟩
    refine ⟨⟨entry, hentry, ?_⟩, hfree⟩
    rw [valueOf_of_mem hnodup hentry]

/-- The verdict on a record whose values come back. -/
theorem verdict_of_comesBack (hschema : r.schema.Sound) (hvalidates : r.bypass = false)
    (hfull : Entries.keys user = r.schema.fields)
    (hback : ∀ name d, r.schema.get? name = some d → name ∉ Record.readOnlyFields →
      ComesBack d (user.valueOf name)) :
    (r.verdict (checkedChanges (Policy.asEntries user))).success = true ∧
      (r.verdict (checkedChanges (Policy.asEntries user))).warnings = [] ∧
      ∀ name text, (name, text) ∈ (r.verdict (checkedChanges (Policy.asEntries user))).accepted →
        text = user.valueOf name := by
  have hrule : ∀ entry ∈ submission (checkedChanges (Policy.asEntries user)),
      Policy.rule r.schema entry.1 entry.2 = .skip ∨
        Policy.rule r.schema entry.1 entry.2 = .keep (user.valueOf entry.1) := by
    intro entry hentry
    rcases List.mem_map.mp hentry with ⟨⟨name, text⟩, hchange, rfl⟩
    rcases (mem_ownChanges_iff hfull hschema).mp hchange with ⟨hname, hfree, rfl⟩
    have hd := hschema.get?_eq hname
    exact (hback name _ hd hfree).rule_eq hd
  -- Every entry is passed over or kept as it is, so none rejects the record and none is dropped.
  have hpasses : Policy.Passes r.schema (submission (checkedChanges (Policy.asEntries user))) := by
    intro entry hentry message hreject
    rcases hrule entry hentry with hskip | hkeep
    · rw [hskip] at hreject
      cases hreject
    · rw [hkeep] at hreject
      cases hreject
  rw [verdict_of_validating hvalidates, Policy.check, Policy.checkFrom_of_passes hpasses]
  refine ⟨rfl, ?_, ?_⟩
  · dsimp only
    rw [List.nil_append, List.filterMap_eq_nil_iff]
    intro entry hentry
    rcases hrule entry hentry with hskip | hkeep
    · rw [Policy.warningOf, hskip]
    · rw [Policy.warningOf, hkeep]
  · intro name text haccepted
    rcases List.mem_filterMap.mp haccepted with ⟨entry, hentry, hkept⟩
    rcases Policy.keptOf_eq_some hkept with ⟨rfl, hkeeps⟩
    rcases hrule entry hentry with hskip | hkeep
    · rw [hskip] at hkeeps
      cases hkeeps
    · rw [hkeep] at hkeeps
      exact (Ruling.keep.inj hkeeps).symm

/-- A value that is supplied again without a warning and leaves the field as it was comes back. -/
theorem comesBack_of_unchanged (hschema : r.schema.Sound) (hvalidates : r.bypass = false)
    (hfull : Entries.keys user = r.schema.fields)
    (hverdict : (r.verdict (checkedChanges (Policy.asEntries user))).success = true)
    (hwarnings : (r.verdict (checkedChanges (Policy.asEntries user))).warnings = [])
    (hsame : (r.updated now (Policy.asEntries user) user).lookup name = user.lookup name)
    (hd : r.schema.get? name = some d) (hfree : name ∉ Record.readOnlyFields) :
    ComesBack d (user.valueOf name) := by
  have hname : name ∈ Entries.keys user := by
    rw [hfull]
    exact mem_fields_of_get? hschema hd
  have hkeys : (Entries.keys (Policy.asEntries user)).Nodup := by
    rw [Policy.keys_asEntries, hfull]
    exact hschema.nodup
  have hown : (name, .str (user.valueOf name)) ∈ Policy.asEntries user :=
    List.mem_map_of_mem (Entries.mem_of_lookup (Record.lookup_valueOf hname))
  have hafter := lookup_updated_of_no_warnings hschema hvalidates hkeys hverdict hwarnings hown hfree
    now user
  rw [hsame, Record.lookup_valueOf hname] at hafter
  rw [verdict_of_validating hvalidates] at hverdict hwarnings
  have hsubmitted : (name, some (Text.strip (user.valueOf name))) ∈
      submission (checkedChanges (Policy.asEntries user)) :=
    List.mem_map_of_mem (mem_without (mem_clean hown) hfree)
  rcases Policy.settled_of_no_warnings hverdict hwarnings hsubmitted with
    ⟨d', hd', ⟨hnull, hrequired⟩ | ⟨hdata, kind, hkind, haccepts⟩⟩
  · left
    cases hd.symm.trans hd'
    exact ⟨hnull, hrequired⟩
  · right
    cases hd.symm.trans hd'
    have hheld : ¬isNullIn r.schema name (Text.strip (user.valueOf name)) = true := by
      rw [isNullIn, hd, Option.any_some, beq_iff_eq]
      exact hdata
    have hstrip := (Option.some.inj (hafter.trans (if_neg hheld))).symm
    change Text.strip (user.valueOf name) = user.valueOf name at hstrip
    rw [hstrip] at hdata haccepts
    exact ⟨hstrip, hdata, kind, hkind, haccepts⟩

theorem lookup_updated_own (hschema : r.schema.Sound) (hfull : Entries.keys user = r.schema.fields)
    (haccepted : ∀ name text,
      (name, text) ∈ (r.verdict (checkedChanges (Policy.asEntries user))).accepted →
        text = user.valueOf name) (now : Moment) (hname : name ≠ Record.modifiedField) :
    (r.updated now (Policy.asEntries user) user).lookup name = user.lookup name := by
  have hkeys : Entries.keys (r.updated now (Policy.asEntries user) user) = r.schema.fields :=
    Record.keys_setAll_stampChanges _ _ hschema.known hfull
  have hvalue : (r.updated now (Policy.asEntries user) user).valueOf name = user.valueOf name := by
    rcases accepted_or_before now (Policy.asEntries user) hname user with hsame | hgiven
    · exact hsame
    · exact haccepted name _ hgiven
  by_cases hfield : name ∈ r.schema.fields
  · rw [Record.lookup_valueOf (hkeys.symm ▸ hfield), Record.lookup_valueOf (hfull.symm ▸ hfield),
      hvalue]
  · rw [Entries.lookup_eq_none_iff.mpr (hkeys.symm ▸ hfield),
      Entries.lookup_eq_none_iff.mpr (hfull.symm ▸ hfield)]

section Requests

variable {σ : Type} [RecordStore σ] {Keeps : σ → Book → Prop} {store : σ} {b : Book} {v : Value}
  {id : String}

theorem fetch_of_get (h : get store v .null = .ok ⟨.found user, id, []⟩) :
    idOf? v = some id ∧ RecordStore.fetch store id = .ok user := by
  unfold get at h
  split at h
  · cases h
  · rename_i known hid
    cases hfetch : RecordStore.fetch store known with
    | ok found =>
        rw [hfetch] at h
        cases h
        exact ⟨hid, hfetch⟩
    | error failure =>
        rw [hfetch] at h
        cases failure <;> cases h

theorem IsMap.update_found (h : IsMap Keeps) (hkeeps : Keeps store b) (hsound : b.Sound)
    (hfields : b.fields = r.schema.fields) (hid : idOf? v = some id)
    (hfound : b.find? id = some user) (now : Moment) (entries : Entries) :
    ∃ outcome store', r.update store now v (.map entries) =
        .ok (⟨outcome, id, (r.verdict (checkedChanges entries)).warnings⟩, store') ∧
      if (r.verdict (checkedChanges entries)).success then
        outcome = .done .updated ∧ RecordStore.fetch store' id = .ok (r.updated now entries user)
      else outcome = .refused (.rejected (r.verdict (checkedChanges entries)).message) := by
  have hstored : isStored store id = .ok true := by
    rw [isStored_of_fetch (h.fetch hkeeps hsound id), hfound, Option.isSome_some]
  rcases wrote_updated hsound hfields hfound now entries with ⟨b', hchange, hwrote⟩
  rcases h.update hkeeps hsound hchange with ⟨store', hdone, hnext⟩
  have hupdate : r.update store now v (.map entries) =
      if (r.verdict (checkedChanges entries)).success then
        perform store .updated id (r.verdict (checkedChanges entries)).warnings
          (RecordStore.update store now id
            (r.storable (r.verdict (checkedChanges entries)).accepted))
      else unchanged store (.refused (.rejected (r.verdict (checkedChanges entries)).message)) id
        (r.verdict (checkedChanges entries)).warnings := by
    rw [update.eq_def, hid]
    simp only [hstored, bind, Except.bind, if_true]
    rfl
  rw [hupdate]
  split
  · refine ⟨.done .updated, store', ?_, rfl, ?_⟩
    · rw [hdone]
      rfl
    · rw [h.fetch hnext hwrote.sound, Book.fetch_eq_ok_iff, hwrote.find?, if_pos rfl]
  · exact ⟨_, store, rfl, rfl⟩

/-- What a run of requests leaves is a book of well-formed records without blanks at the ends. -/
theorem IsMap.run_isTrimmed (h : IsMap Keeps) (hschema : r.schema.Sound) (hvalidates : r.bypass = false)
    (hempty : Keeps store ⟨r.schema.fields, []⟩) (requests : List (Moment × Request)) :
    ∃ b, Keeps (r.run store requests).2 b ∧ b.Sound ∧ b.fields = r.schema.fields ∧
      ∀ record ∈ b.records, IsWellFormed r.schema record ∧ IsTrimmed r.schema record := by
  apply h.run hschema hempty
    (fun _ b => ∀ record ∈ b.records, IsWellFormed r.schema record ∧ IsTrimmed r.schema record)
  · intro record hrecord
    cases hrecord
  · intro front now request b b' hsound hfields hall hshifts record hrecord
    have hwell := hshifts.isWellFormed hschema hvalidates fun other hother => (hall other hother).1
    have htrimmed := hshifts.isTrimmed hschema hvalidates fun other hother => (hall other hother).2
    exact ⟨hwell record hrecord, htrimmed record hrecord⟩

/-- Whatever a registry that validates was asked for, on an empty store that behaves as a map, the
record of a user can be supplied as changes of the same user and gets an answer.  The answer is a
success without warnings that leaves every field as it is but the time of the last change, exactly
if the values that nobody supplied come back. -/
theorem writtenBack_of_run (hmap : IsMap Keeps) {config : Value} {warnings : List SchemaWarning}
    (hschema : Schema.assemble config = .ok (schema, warnings)) (hr : r.schema = schema)
    (hvalidates : r.bypass = false) (hempty : Keeps store ⟨schema.fields, []⟩)
    (requests : List (Moment × Request))
    (hshown : get (r.run store requests).2 v .null = .ok ⟨.found user, id, []⟩) (now : Moment) :
    ∃ a store',
      r.update (r.run store requests).2 now v (.map (Policy.asEntries user)) = .ok (a, store') ∧
      ((a.success = true ∧ a.warnings = [] ∧
        ∃ after, get store' v .null = .ok ⟨.found after, id, []⟩ ∧
          ∀ name, name ≠ Record.modifiedField → after.lookup name = user.lookup name) ↔
        IsFit schema user) := by
  subst hr
  have hsound := Schema.assemble_sound hschema
  rcases hmap.run_isTrimmed hsound hvalidates hempty requests with
    ⟨b, hkeeps, hbook, hfields, hall⟩
  rcases fetch_of_get hshown with ⟨hid, hfetch⟩
  rw [hmap.fetch hkeeps hbook, Book.fetch_eq_ok_iff] at hfetch
  rcases hall user (List.mem_of_find?_eq_some hfetch) with ⟨hwell, htrimmed⟩
  rcases hmap.update_found hkeeps hbook hfields hid hfetch now (Policy.asEntries user) with
    ⟨outcome, store', hupdate, houtcome⟩
  refine ⟨_, store', hupdate, ?_⟩
  constructor
  · rintro ⟨hsuccess, hwarnings, after, hafter, hsame⟩
    have hverdict : (r.verdict (checkedChanges (Policy.asEntries user))).success = true := by
      by_contra hfailed
      rw [if_neg hfailed] at houtcome
      rw [houtcome] at hsuccess
      cases hsuccess
    rw [if_pos hverdict] at houtcome
    cases (fetch_of_get hafter).2.symm.trans houtcome.2
    apply isFit_of_comesBack
    intro name d hd hfree
    exact comesBack_of_unchanged hsound hvalidates hwell.full hverdict hwarnings
      (hsame name (ne_modifiedField hfree)) hd hfree
  · intro hfit
    have hback : ∀ name d, r.schema.get? name = some d → name ∉ Record.readOnlyFields →
        ComesBack d (user.valueOf name) := by
      intro name d hd hfree
      exact hfit.comesBack hwell htrimmed (mem_fields_of_get? hsound hd) hfree hd
    rcases verdict_of_comesBack hsound hvalidates hwell.full hback with
      ⟨hverdict, hwarnings, haccepted⟩
    rw [if_pos hverdict] at houtcome
    rcases houtcome with ⟨rfl, hafter⟩
    refine ⟨rfl, hwarnings, _, get_of_fetch hid hafter, ?_⟩
    intro name hname
    exact lookup_updated_own hsound hwell.full haccepted now hname

end Requests

/-- Of the users who came and were changed, one is written back as it is. -/
theorem writtenBack_of_run_of_stay :
    ∃ (m m' : Mounted Store) (user after : Record) (a : UserAnswer),
      m.IsSetUp .database noteSchema ∧
      get (noteRegistry.run m stay).2 (.str "ada") .null = .ok ⟨.found user, "ada", []⟩ ∧
      noteRegistry.update (noteRegistry.run m stay).2 420 (.str "ada")
        (.map (Policy.asEntries user)) = .ok (a, m') ∧ a.success = true ∧ a.warnings = [] ∧
      get m' (.str "ada") .null = .ok ⟨.found after, "ada", []⟩ ∧
      after.lookup "note" = user.lookup "note" := by
  rcases assemble_noteSetup with ⟨warnings, hassemble⟩
  rcases exists_isSetUp_noteSchema .database with ⟨m, hsetup⟩
  have hmoniker : (RecordStore.fetch (noteRegistry.run (Book.mk noteSchema.fields []) stay).2
      "ada").toOption.any (fun user => user.valueOf monikerField == "Countess") = true := by
    decide +kernel
  rw [← (stay_eq rfl hsetup).2] at hmoniker
  rcases Steps.exists_of_any hmoniker with ⟨user, hfetch, hname⟩
  rw [beq_iff_eq] at hname
  have hshown := get_of_fetch (idOf?_of_isUserId (by decide)) hfetch
  have hfit : IsFit noteSchema user := by
    have hdefaults : ∀ field ∈ noteSchema.definitions, field.1 ∉ Record.readOnlyFields →
        field.1 ≠ monikerField → ComesBack field.2 (initialValue noteSchema field.1) := by
      decide +kernel
    have hkind : ∀ field ∈ noteSchema.definitions, field.1 = monikerField →
        field.2.validator? = some .moniker ∧ field.2.nullValue = "" := by
      decide +kernel
    constructor
    case initial =>
      intro name d hd hfree hother hinitial
      rw [hinitial]
      exact hdefaults (name, d) (Entries.mem_of_lookup hd) hfree hother
    case moniker =>
      intro d hd
      rcases hkind (monikerField, d) (Entries.mem_of_lookup hd) rfl with ⟨hvalidator, hnull⟩
      left
      rw [hname]
      exact ⟨hvalidator, by rw [hnull]; decide⟩
  rcases writtenBack_of_run (r := noteRegistry) isMap_database hassemble rfl rfl
    (holds_noteSchema hsetup) stay hshown 420 with ⟨a, m', hupdate, hback⟩
  rcases hback.mpr hfit with ⟨hsuccess, hwarnings, after, hafter, hsame⟩
  exact ⟨m, m', user, after, a, hsetup, hshown, hupdate, hsuccess, hwarnings, hafter,
    hsame "note" (by decide)⟩

/-- A setup with a field of a kind that no validator is for, and a default for it. -/
def tagSetup : Value :=
  .map [("include_standard_fields", .list []), ("app_fields", .list [.map [
    ("field_name", .str "tag"), ("type", .str "json"), ("default", .str "x")]])]

def tagRegistry : Registry where
  manifest := { backend := "", state := [], schema := .ofSetup tagSetup }

/-- The users of the registry after one was registered. -/
def tagBook : Book :=
  (tagRegistry.run (Book.mk tagRegistry.schema.fields [])
    [(0, .register (.map [("user_id", .str "ada"), ("moniker", .str "Ada")]))]).2

/-- A default that no validator can check is not taken when it is supplied. -/
theorem not_writtenBack_of_tag :
    ¬∀ (config : Value) (warnings : List SchemaWarning) (r : Registry)
      (requests : List (Moment × Request)) (v : Value) (id : String) (user : Record) (now : Moment)
      (a : UserAnswer) (b : Book),
      Schema.assemble config = .ok (r.schema, warnings) → r.bypass = false →
      get (r.run (Book.mk r.schema.fields []) requests).2 v .null = .ok ⟨.found user, id, []⟩ →
      r.update (r.run (Book.mk r.schema.fields []) requests).2 now v
        (.map (Policy.asEntries user)) = .ok (a, b) →
      a.success = true ∧ a.warnings = [] := by
  intro hback
  have hok : (Schema.assemble tagSetup).isOk = true := by decide +kernel
  rcases Schema.assemble_ofSetup hok with ⟨warnings, hassemble⟩
  have hwarned : (RecordStore.fetch tagBook "ada").toOption.any (fun user =>
      (tagRegistry.update tagBook 60 (.str "ada") (.map (Policy.asEntries user))).toOption.any
        fun result => result.1.warnings != []) = true := by
    decide +kernel
  rcases Steps.exists_of_any hwarned with ⟨user, hfetch, hupdated⟩
  rcases Steps.exists_of_any hupdated with ⟨⟨a, b⟩, hupdate, hwarnings⟩
  have hshown := get_of_fetch (idOf?_of_isUserId (by decide)) hfetch
  rw [(hback tagSetup warnings tagRegistry _ (.str "ada") "ada" user 60 a b hassemble rfl hshown
    hupdate).2] at hwarnings
  cases hwarnings

end Registry
end Roster
