import Roster.Proofs.Registry.Application
import Roster.Proofs.Store.Texts

/-!
# Records over a run

A record that is shown was registered once and changed since, and each time it was shown with its
texts as the backend reads them back.  What holds of every new record, and is kept by every change
and by being read back, holds of all records.
-/

namespace Roster

/-- What a backend reads where it wrote a text. Only documents do not give back every text. -/
def Backend.reread : Backend → String → String
  | .yaml => Yaml.rereadText
  | _ => id

namespace Registry

/-!
## Stores that show what was written
-/

/-- As long as the store is sound, it shows what was written, as it is read back, and nothing
else. -/
structure Faithful {σ : Type} [RecordStore σ] (fields : List String) (reread : String → String)
    (I : σ → Prop) : Prop where
  insert : ∀ {store store' : σ} {now : Moment} {id : String} {record : Record}, I store →
    isUserId id = true → isStored store id = .ok false → Entries.keys record = fields →
    RecordStore.insert store now id record = .ok store' →
    I store' ∧ ∀ other shown, RecordStore.fetch store' other = .ok shown →
      (other = id ∧ shown = (record.stampNew fields now id).mapTexts reread) ∨
        other ≠ id ∧ RecordStore.fetch store other = .ok shown
  update : ∀ {store store' : σ} {now : Moment} {id : String} {changes old : Record}, I store →
    RecordStore.fetch store id = .ok old → RecordStore.update store now id changes = .ok store' →
    I store' ∧ ∀ other shown, RecordStore.fetch store' other = .ok shown →
      (other = id ∧ shown =
        Record.mapTexts reread (Entries.setAll old (changes.stampChanges fields now))) ∨
        other ≠ id ∧ RecordStore.fetch store other = .ok shown
  remove : ∀ {store store' : σ} {id : String} {old : Record}, I store →
    RecordStore.fetch store id = .ok old → RecordStore.remove store id = .ok store' →
    I store' ∧ ∀ other shown, RecordStore.fetch store' other = .ok shown →
      RecordStore.fetch store other = .ok shown

/-- A store of a backend that stands, and shows only whole records. -/
structure ShowsWhole (schema : Schema) (backend : Backend) (m : Mounted Store) : Prop where
  stands : m.Stands schema.fields
  backend : m.store.backend = backend
  whole : ∀ id shown, RecordStore.fetch m id = .ok shown → Entries.keys shown = schema.fields

section Mounted

variable {schema : Schema} {backend : Backend} {m m' : Mounted Store} {id : String}
  {record : Record}

theorem eq_of_shows (hsound : schema.Sound)
    (hnames : backend = .yaml → ∀ name ∈ schema.fields, Documents.IsFieldName name)
    {store : Store} (hstore : store.backend = backend) (hkeys : Entries.keys record = schema.fields)
    {shown : Record} (h : store.Shows record shown) : shown = record.mapTexts backend.reread := by
  subst hstore
  cases store with
  | sheet s => exact h.2.trans (Record.mapTexts_eq_self fun _ _ => rfl).symm
  | table s => exact Eq.trans h (Record.mapTexts_eq_self fun _ _ => rfl).symm
  | documents s =>
      have hread := Documents.readTexts_of_keys hsound (hnames rfl) hkeys
      exact Option.some.inj (Except.ok.inj (Eq.trans (Eq.symm h) hread))

theorem ShowsWhole.write (h : ShowsWhole schema backend m) (hsound : schema.Sound)
    (hnames : backend = .yaml → ∀ name ∈ schema.fields, Documents.IsFieldName name)
    (hkeys : Entries.keys record = schema.fields) (hstands : m'.Stands schema.fields)
    (hwrote : m.Wrote id record m') :
    ShowsWhole schema backend m' ∧ ∀ other shown, RecordStore.fetch m' other = .ok shown →
      (other = id ∧ shown = record.mapTexts backend.reread) ∨
        other ≠ id ∧ RecordStore.fetch m other = .ok shown := by
  have hcases : ∀ other shown, RecordStore.fetch m' other = .ok shown →
      (other = id ∧ shown = record.mapTexts backend.reread) ∨
        other ≠ id ∧ RecordStore.fetch m other = .ok shown := by
    intro other shown hshown
    by_cases hother : other = id
    · subst hother
      exact Or.inl ⟨rfl, eq_of_shows hsound hnames h.backend hkeys ((hwrote.shown shown).mp hshown)⟩
    · exact Or.inr ⟨hother, hwrote.before other hother shown hshown⟩
  refine ⟨⟨hstands, hwrote.store.symm ▸ h.backend, fun other shown hshown => ?_⟩, hcases⟩
  rcases hcases other shown hshown with ⟨-, rfl⟩ | ⟨-, hold⟩
  · rw [Record.keys_mapTexts, hkeys]
  · exact h.whole other shown hold

theorem faithful_mounted (hsound : schema.Sound)
    (hnames : backend = .yaml → ∀ name ∈ schema.fields, Documents.IsFieldName name) :
    Faithful schema.fields backend.reread (ShowsWhole schema backend) where
  insert := by
    intro m m' now id record h hvalid hstored hfull hinsert
    have hfree := fetch_ne_ok_of_isStored hstored
    exact h.write hsound hnames (Record.keys_stampNew now id hsound.known hfull)
      (h.stands.insert hvalid hfull hfree hinsert).2.1
      (h.stands.wrote_of_insert hvalid hfull hfree hinsert)
  update := by
    intro m m' now id changes old h hfound hupdate
    exact h.write hsound hnames
      (Record.keys_setAll_stampChanges now changes hsound.known (h.whole id old hfound))
      (h.stands.update hfound hupdate).2.1 (h.stands.wrote_of_update hfound hupdate)
  remove := by
    intro m m' id old h hfound hremove
    have hdropped := h.stands.dropped_of_remove hfound hremove
    have hcases : ∀ other shown, RecordStore.fetch m' other = .ok shown →
        RecordStore.fetch m other = .ok shown :=
      fun other shown hshown => ((hdropped.shown other shown).mp hshown).2
    exact ⟨⟨(h.stands.remove hfound hremove).2, hdropped.store.symm ▸ h.backend,
      fun other shown hshown => h.whole other shown (hcases other shown hshown)⟩, hcases⟩

end Mounted

/-!
## Runs
-/

section Runs

variable {σ : Type} [RecordStore σ] {r : Registry} {store : σ}

theorem run_append (front back : List (Moment × Request)) :
    (r.run store (front ++ back)).2 = (r.run (r.run store front).2 back).2 := by
  induction front generalizing store with
  | nil => rfl
  | cons entry rest ih => exact ih

theorem run_snoc (front : List (Moment × Request)) (now : Moment) (request : Request) :
    (r.run store (front ++ [(now, request)])).2 =
      (r.answer (r.run store front).2 now request).2 := by
  rw [run_append]
  rfl

/-- The request registers the user or changes it. -/
inductive Writes (r : Registry) (store : σ) (now : Moment) (id : String) : Request → Prop where
  | registers {entries : Entries} {warnings : List String}
      (hreply : (r.answer store now (.register (.map entries))).1 =
        .ok (.user ⟨.done .created, id, warnings⟩)) : Writes r store now id (.register (.map entries))
  | updates {v : Value} {entries : Entries} {warnings : List String}
      (hreply : (r.answer store now (.update v (.map entries))).1 =
        .ok (.user ⟨.done .updated, id, warnings⟩)) : Writes r store now id (.update v (.map entries))

theorem Writes.reply {now : Moment} {id : String} {request : Request}
    (h : r.Writes store now id request) :
    ∃ deed warnings, (r.answer store now request).1 = .ok (.user ⟨.done deed, id, warnings⟩) := by
  cases h with
  | registers hreply => exact ⟨_, _, hreply⟩
  | updates hreply => exact ⟨_, _, hreply⟩

/-- What holds of the records of users who were registered, and is kept when they are changed or read
back, holds of every record that is shown. -/
theorem shown_of_run {reread : String → String} {I : σ → Prop}
    (hfaithful : Faithful r.schema.fields reread I) (hschema : r.schema.Sound) (hstore : I store)
    (hempty : ∀ id record, RecordStore.fetch store id ≠ .ok record)
    (Good : List (Moment × Request) → String → Record → Prop)
    (hlater : ∀ {front now request id record}, ¬r.Writes (r.run store front).2 now id request →
      Good front id record → Good (front ++ [(now, request)]) id record)
    (hregister : ∀ {front now entries id warnings},
      (r.answer (r.run store front).2 now (.register (.map entries))).1 =
        .ok (.user ⟨.done .created, id, warnings⟩) →
      isUserId id = true → (supplied entries).valueOf Record.idField = id →
      Grammar.isMoniker ((supplied entries).valueOf monikerField).toList = true →
      (r.verdict (checked entries)).success = true →
      Good (front ++ [(now, .register (.map entries))]) id (r.registered now entries))
    (hupdate : ∀ {front now v entries id before},
      (r.verdict (checkedChanges entries)).success = true → Good front id before →
      Good (front ++ [(now, .update v (.map entries))]) id (r.updated now entries before))
    (hread : ∀ {requests id record}, Good requests id record →
      Good requests id (record.mapTexts reread))
    (requests : List (Moment × Request)) :
    I (r.run store requests).2 ∧ ∀ id shown,
      RecordStore.fetch (r.run store requests).2 id = .ok shown → Good requests id shown := by
  -- The induction is from the end: the last request is asked of the store behind all others.
  induction requests using List.reverseRecOn with
  | nil => exact ⟨hstore, fun id shown hshown => absurd hshown (hempty id shown)⟩
  | append_singleton front entry ih =>
      rcases entry with ⟨now, request⟩
      rcases ih with ⟨hsound, hgood⟩
      have hdoes := does_answer r (r.run store front).2 now request
      have hwrites : ∀ {id}, r.Writes (r.run store front).2 now id request → ∃ deed warnings,
          (r.answer (r.run store front).2 now request).1 = .ok (.user ⟨.done deed, id, warnings⟩) :=
        fun h => h.reply
      rw [run_snoc]
      generalize hresult : r.answer (r.run store front).2 now request = result at hdoes hwrites
      cases hdoes with
      | reads reply hrequest =>
          refine ⟨hsound, fun id shown hshown => hlater (fun h => ?_) (hgood id shown hshown)⟩
          cases h <;> simp at hrequest
      | refuses reply hreply =>
          refine ⟨hsound, fun id shown hshown => hlater (fun h => ?_) (hgood id shown hshown)⟩
          rcases hwrites h with ⟨deed, warnings, hdone⟩
          cases hreply _ hdone
      | @registers entries id store' hid hvalid hmoniker hfree hverdict hinsert =>
          rcases hfaithful.insert hsound hvalid hfree (keys_newRecord hschema _ _ _) hinsert with
            ⟨hnext, hshows⟩
          refine ⟨hnext, fun other shown hshown => ?_⟩
          rcases hshows other shown hshown with ⟨rfl, rfl⟩ | ⟨hother, hold⟩
          · have hregistered := hregister (congrArg Prod.fst hresult) hvalid hid hmoniker hverdict
            subst hid
            exact hread hregistered
          · refine hlater (fun h => ?_) (hgood other shown hold)
            rcases hwrites h with ⟨deed, warnings, hdone⟩
            cases hdone
            exact hother rfl
      | @updates v entries known store' hid hstored hverdict hchange =>
          rcases isStored_eq_true_iff.mp hstored with ⟨old, hfound⟩
          rcases hfaithful.update hsound hfound hchange with ⟨hnext, hshows⟩
          refine ⟨hnext, fun other shown hshown => ?_⟩
          rcases hshows other shown hshown with ⟨rfl, rfl⟩ | ⟨hother, hold⟩
          · exact hread (hupdate hverdict (hgood _ old hfound))
          · refine hlater (fun h => ?_) (hgood other shown hold)
            rcases hwrites h with ⟨deed, warnings, hdone⟩
            cases hdone
            exact hother rfl
      | deletes hid hstored hremove =>
          rcases isStored_eq_true_iff.mp hstored with ⟨old, hfound⟩
          rcases hfaithful.remove hsound hfound hremove with ⟨hnext, hshows⟩
          refine ⟨hnext, fun other shown hshown => ?_⟩
          exact hlater nofun (hgood other shown (hshows other shown hshown))

end Runs

/-!
## Stores that were set up
-/

theorem fetch_ne_ok_of_isSetUp {backend : Backend} {schema : Schema} {m : Mounted Store}
    (hschema : schema.Sound)
    (hshield : backend = .database →
      ∀ name ∈ schema.fields, ColumnName.unshield name.toList = name.toList)
    (h : m.IsSetUp backend schema) (id : String) (record : Record) :
    RecordStore.fetch m id ≠ .ok record := by
  rcases Mounted.opened_of_isSetUp hschema hshield h with ⟨hstands, hholds⟩
  have hstore := Mounted.backend_of_isSetUp h
  by_cases hfits : backend = .file → Delimited.Fits schema.fields
  · rw [(hholds hfits).fetch (Book.sound_empty hschema.nodup hschema.known)]
    exact fun hfetch => nomatch hfetch
  · rw [Classical.not_imp] at hfits
    rcases hfits with ⟨rfl, hlong⟩
    rcases m with ⟨store, tree⟩
    cases store with
    | sheet s =>
        rcases hstands with ⟨b, -, hfields, hfile⟩ | hlost
        · exact absurd (hfields ▸ hfile.header) hlong
        · exact hlost.fetch_ne_ok id record
    | documents s => cases hstore
    | table s => cases hstore

/-- On a store that was set up, a run leaves the records that it leaves on a book. -/
theorem fetch_run_of_isSetUp {r : Registry} {backend : Backend} {m : Mounted Store}
    (h : m.IsSetUp backend r.schema) (hschema : r.schema.Sound)
    (hshield : backend = .database →
      ∀ name ∈ r.schema.fields, ColumnName.unshield name.toList = name.toList)
    (hheader : backend = .file → Delimited.Fits r.schema.fields)
    {requests : List (Moment × Request)}
    (haffords : r.Affords m.store ⟨r.schema.fields, []⟩ requests) (id : String) :
    RecordStore.fetch (r.run m requests).2 id =
      RecordStore.fetch (r.run (Book.mk r.schema.fields []) requests).2 id := by
  have hbook := Book.sound_empty hschema.nodup hschema.known
  have hholds := (Mounted.opened_of_isSetUp hschema hshield h).2 hheader
  rcases (preserves_sound r).run hschema ⟨hbook, rfl⟩ requests with ⟨hlast, -⟩
  exact (run_eq_of_holds hholds hbook hschema rfl haffords).2.2.fetch hlast id

/-- Documents afford a run in which every record of the book is read back. -/
theorem affords_of_yaml {r : Registry} {store : Store} {b : Book}
    {requests : List (Moment × Request)} (hstore : store.backend = .yaml)
    (hreads : ∀ front, front <+: requests → ∀ record ∈ (r.run b front).2.records,
      Documents.ReadsBack record) : r.Affords store b requests := by
  cases store with
  | documents s =>
      refine ⟨hreads, fun entry _ => ?_⟩
      rcases entry with ⟨now, request⟩
      cases request with
      | list filter => exact fun _ _ => trivial
      | _ => exact trivial
  | sheet s => cases hstore
  | table s => cases hstore

end Registry
end Roster
