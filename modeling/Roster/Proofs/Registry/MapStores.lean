import Roster.Proofs.Registry.Histories

/-!
# Stores that behave as maps

A store behaves as a map from ids to records when it keeps the records of a book and does whatever
the book does.  What a request does to such a store is what it does to the book, so that a fact
about the records of the book, which every request keeps, is a fact about all runs.
-/

namespace Roster
namespace Registry

/-- A store behaves as a map from ids to records.  While it keeps the records of a sound book, it
shows what the book shows, and whatever the book does when a registry asks for it, the store does
too. -/
structure IsMap {σ : Type} [RecordStore σ] (Keeps : σ → Book → Prop) : Prop where
  fetch : ∀ {store : σ} {b : Book}, Keeps store b → b.Sound → ∀ id,
    RecordStore.fetch store id = RecordStore.fetch b id
  insert : ∀ {store : σ} {b b' : Book} {now : Moment} {id : String} {record : Record},
    Keeps store b → b.Sound → isUserId id = true → Entries.keys record = b.fields →
    RecordStore.insert b now id record = .ok b' →
    ∃ store', RecordStore.insert store now id record = .ok store' ∧ Keeps store' b'
  update : ∀ {store : σ} {b b' : Book} {now : Moment} {id : String} {changes : Record},
    Keeps store b → b.Sound → RecordStore.update b now id changes = .ok b' →
    ∃ store', RecordStore.update store now id changes = .ok store' ∧ Keeps store' b'
  remove : ∀ {store : σ} {b b' : Book} {id : String}, Keeps store b → b.Sound →
    RecordStore.remove b id = .ok b' →
    ∃ store', RecordStore.remove store id = .ok store' ∧ Keeps store' b'

theorem isMap_book : IsMap (Eq : Book → Book → Prop) where
  fetch := by
    intro store b h _ id
    rw [h]
  insert := by
    intro store b b' now id record h _ _ _ hinsert
    exact ⟨b', h ▸ hinsert, rfl⟩
  update := by
    intro store b b' now id changes h _ hupdate
    exact ⟨b', h ▸ hupdate, rfl⟩
  remove := by
    intro store b b' id h _ hremove
    exact ⟨b', h ▸ hremove, rfl⟩

/-- A table of a database behaves as a map. -/
theorem isMap_database :
    IsMap fun (m : Mounted Store) (b : Book) => m.Holds b ∧ m.store.backend = .database where
  fetch := by
    intro m b h hsound id
    exact h.1.fetch hsound id
  insert := by
    intro m b b' now id record h hsound hvalid hfull hinsert
    rcases h.1.insert hsound hvalid hfull hinsert fun record _ => admits_of_database h.2 record with
      ⟨m', hdone, hstore, hholds⟩
    exact ⟨m', hdone, hholds, hstore ▸ h.2⟩
  update := by
    intro m b b' now id changes h hsound hupdate
    rcases h.1.update hsound hupdate fun record _ => admits_of_database h.2 record with
      ⟨m', hdone, hstore, hholds⟩
    exact ⟨m', hdone, hholds, hstore ▸ h.2⟩
  remove := by
    intro m b b' id h hsound hremove
    rcases h.1.remove hsound hremove with ⟨m', hdone, hstore, hholds⟩
    exact ⟨m', hdone, hholds, hstore ▸ h.2⟩

theorem holds_of_isSetUp {schema : Schema} (hschema : schema.Sound)
    (hshield : ∀ name ∈ schema.fields, ColumnName.unshield name.toList = name.toList)
    {m : Mounted Store} (h : m.IsSetUp .database schema) :
    m.Holds ⟨schema.fields, []⟩ ∧ m.store.backend = .database :=
  ⟨(Mounted.opened_of_isSetUp hschema (fun _ => hshield) h).2 nofun, Mounted.backend_of_isSetUp h⟩

theorem holds_noteSchema {m : Mounted Store} (h : m.IsSetUp .database noteSchema) :
    m.Holds ⟨noteSchema.fields, []⟩ ∧ m.store.backend = .database :=
  holds_of_isSetUp sound_noteSchema
    (fun name hname => ColumnName.unshield_of_isIdentifier (isIdentifier_noteSchema name hname)) h

section Runs

variable {σ : Type} [RecordStore σ] {r : Registry}

/-!
## Single requests
-/

/-- What a request does to the book whose records a store keeps, with the reply to it. -/
inductive Shifts (r : Registry) (b : Book) (now : Moment) :
    Request → Except Fault Reply → Book → Prop where
  | stays {request : Request} (reply : Except Fault Reply)
      (hreply : ∀ deed id warnings, reply ≠ .ok (.user ⟨.done deed, id, warnings⟩)) :
      Shifts r b now request reply b
  | registers {entries : Entries} {id : String} {warnings : List String} {b' : Book}
      (hid : (supplied entries).valueOf Record.idField = id)
      (hmoniker : Grammar.isMoniker ((supplied entries).valueOf monikerField).toList = true)
      (hverdict : (r.verdict (checked entries)).success = true)
      (hwrote : b.Wrote id (r.registered now entries) b') :
      Shifts r b now (.register (.map entries)) (.ok (.user ⟨.done .created, id, warnings⟩)) b'
  | updates {v : Value} {entries : Entries} {id : String} {warnings : List String} {old : Record}
      {b' : Book} (hid : idOf? v = some id)
      (hverdict : (r.verdict (checkedChanges entries)).success = true)
      (hfound : b.find? id = some old) (hwrote : b.Wrote id (r.updated now entries old) b') :
      Shifts r b now (.update v (.map entries)) (.ok (.user ⟨.done .updated, id, warnings⟩)) b'
  | deletes {v : Value} {id : String} {warnings : List String} (hid : idOf? v = some id) :
      Shifts r b now (.delete v) (.ok (.user ⟨.done .deleted, id, warnings⟩)) (b.drop id)

variable {Keeps : σ → Book → Prop} {store : σ} {b : Book}

theorem IsMap.find?_eq_none (h : IsMap Keeps) (hkeeps : Keeps store b) (hsound : b.Sound)
    {id : String} (hfree : isStored store id = .ok false) : b.find? id = none := by
  rw [isStored_of_fetch (h.fetch hkeeps hsound id)] at hfree
  exact Option.isNone_iff_eq_none.mp (Option.isSome_eq_false_iff.mp (Except.ok.inj hfree))

theorem IsMap.exists_find? (h : IsMap Keeps) (hkeeps : Keeps store b) (hsound : b.Sound)
    {id : String} (hstored : isStored store id = .ok true) : ∃ old, b.find? id = some old := by
  rw [isStored_of_fetch (h.fetch hkeeps hsound id)] at hstored
  exact Option.isSome_iff_exists.mp (Except.ok.inj hstored)

theorem get_ne_done {v fields : Value} {deed : Deed} {id : String} {warnings : List String} :
    get store v fields ≠ .ok ⟨.done deed, id, warnings⟩ := by
  intro h
  rw [get] at h
  split at h
  · cases h
  · rcases Steps.bind_eq_ok.mp h with ⟨settled, -, hshown⟩
    cases settled with
    | error refusal => cases hshown
    | ok user =>
        dsimp only at hshown
        split at hshown
        · cases hshown
        · rcases Steps.bind_eq_ok.mp hshown with ⟨names, -, hprojected⟩
          cases hprojected

theorem wrote_registered (hschema : r.schema.Sound) (hsound : b.Sound)
    (hfields : b.fields = r.schema.fields) {entries : Entries}
    (hvalid : isUserId ((supplied entries).valueOf Record.idField) = true)
    (hfree : b.find? ((supplied entries).valueOf Record.idField) = none) (now : Moment) :
    ∃ b', RecordStore.insert b now ((supplied entries).valueOf Record.idField)
        (r.newRecord ((supplied entries).valueOf Record.idField)
          ((supplied entries).valueOf monikerField) (r.verdict (checked entries)).accepted) = .ok b' ∧
      b.Wrote ((supplied entries).valueOf Record.idField) (r.registered now entries) b' := by
  have hadd := insert_newRecord hschema hvalid hfree now ((supplied entries).valueOf monikerField)
    (r.verdict (checked entries)).accepted
  have hwrote := hsound.wrote_of_insert ((keys_newRecord hschema _ _ _).trans hfields.symm) hvalid hadd
  rw [hfields] at hadd hwrote
  exact ⟨_, hadd, hwrote⟩

theorem wrote_updated (hsound : b.Sound) (hfields : b.fields = r.schema.fields) {id : String}
    {old : Record} (hfound : b.find? id = some old) (now : Moment) (entries : Entries) :
    ∃ b', RecordStore.update b now id (r.storable (r.verdict (checkedChanges entries)).accepted) =
        .ok b' ∧ b.Wrote id (r.updated now entries old) b' := by
  have hchange := Book.update_of_found hfound now
    (r.storable (r.verdict (checkedChanges entries)).accepted)
  have hwrote := hsound.wrote_of_update hfound hchange
  rw [hfields] at hchange hwrote
  exact ⟨_, hchange, hwrote⟩

/-- Behind a request the store keeps the records that the request leaves in the book. -/
theorem IsMap.shifts (h : IsMap Keeps) (hschema : r.schema.Sound) (hkeeps : Keeps store b)
    (hsound : b.Sound) (hfields : b.fields = r.schema.fields) (now : Moment) (request : Request) :
    ∃ b', Keeps (r.answer store now request).2 b' ∧
      Shifts r b now request (r.answer store now request).1 b' ∧
      b'.Sound ∧ b'.fields = r.schema.fields := by
  have hdoes := does_answer r store now request
  generalize hresult : r.answer store now request = result at hdoes
  -- `Does` says what the store was asked to do.  Each time the book can do the same, and the store
  -- then keeps what the book holds.
  cases hdoes with
  | reads reply hrequest =>
      refine ⟨b, hkeeps, .stays reply ?_, hsound, hfields⟩
      intro deed id warnings heq
      subst heq
      rcases hrequest with ⟨v, fields, rfl⟩ | ⟨filter, rfl⟩
      · rcases Steps.map_eq_ok.mp (congrArg Prod.fst hresult) with ⟨a, hget, ha⟩
        cases ha
        exact get_ne_done hget
      · rcases Steps.map_eq_ok.mp (congrArg Prod.fst hresult) with ⟨listing, -, hlisting⟩
        cases hlisting
  | refuses reply hreply =>
      refine ⟨b, hkeeps, .stays reply ?_, hsound, hfields⟩
      intro deed id warnings heq
      cases hreply _ heq
  | registers hid hvalid hmoniker hfree hverdict hinsert =>
      subst hid
      have hnone := h.find?_eq_none hkeeps hsound hfree
      rcases wrote_registered hschema hsound hfields hvalid hnone now with ⟨b', hadd, hwrote⟩
      rcases h.insert hkeeps hsound hvalid ((keys_newRecord hschema _ _ _).trans hfields.symm) hadd
        with ⟨store', hdone, hnext⟩
      rw [hdone] at hinsert
      cases hinsert
      exact ⟨b', hnext, .registers rfl hmoniker hverdict hwrote, hwrote.sound,
        hwrote.fields.trans hfields⟩
  | updates hid hstored hverdict hupdate =>
      rcases h.exists_find? hkeeps hsound hstored with ⟨old, hfound⟩
      rcases wrote_updated hsound hfields hfound now _ with ⟨b', hchange, hwrote⟩
      rcases h.update hkeeps hsound hchange with ⟨store', hdone, hnext⟩
      rw [hdone] at hupdate
      cases hupdate
      exact ⟨b', hnext, .updates hid hverdict hfound hwrote, hwrote.sound,
        hwrote.fields.trans hfields⟩
  | deletes hid hstored hremove =>
      rcases h.exists_find? hkeeps hsound hstored with ⟨old, hfound⟩
      have hdrop := Book.remove_of_found hfound
      rcases h.remove hkeeps hsound hdrop with ⟨store', hdone, hnext⟩
      rw [hdone] at hremove
      cases hremove
      exact ⟨_, hnext, .deletes hid, hsound.drop _, hfields⟩

/-!
## Runs
-/

/-- What holds of the empty book, and is kept by whatever a request does to a book, holds of the
book that a store keeps after a run. -/
theorem IsMap.run (h : IsMap Keeps) (hschema : r.schema.Sound)
    (hempty : Keeps store ⟨r.schema.fields, []⟩) (Good : List (Moment × Request) → Book → Prop)
    (hstart : Good [] ⟨r.schema.fields, []⟩)
    (hstep : ∀ {front now request b b'}, b.Sound → b.fields = r.schema.fields → Good front b →
      Shifts r b now request (r.answer (r.run store front).2 now request).1 b' →
      Good (front ++ [(now, request)]) b')
    (requests : List (Moment × Request)) :
    ∃ b, Keeps (r.run store requests).2 b ∧ b.Sound ∧ b.fields = r.schema.fields ∧
      Good requests b := by
  -- The induction is from the end: the last request finds the book that all others left.
  induction requests using List.reverseRecOn with
  | nil => exact ⟨_, hempty, Book.sound_empty hschema.nodup hschema.known, rfl, hstart⟩
  | append_singleton front entry ih =>
      rcases entry with ⟨now, request⟩
      rcases ih with ⟨b, hkeeps, hsound, hfields, hgood⟩
      rcases h.shifts hschema hkeeps hsound hfields now request with
        ⟨b', hnext, hshifts, hsound', hfields'⟩
      rw [run_snoc]
      exact ⟨b', hnext, hsound', hfields', hstep hsound hfields hgood hshifts⟩

end Runs

/-- Users come, one is changed and one goes; some requests are refused, and some try to set what
only a store sets. -/
def stay : List (Moment × Request) :=
  [(60, .register (.map [("user_id", .str " ada "), ("moniker", .str "Ada"),
      ("created_date", .str "never"), ("note", .str "first")])),
    (120, .register (.map [("user_id", .str "ada"), ("moniker", .str "Eve")])),
    (180, .register (.map [("user_id", .str "bob"), ("moniker", .str "Bob"),
      ("unknown", .str "x")])),
    (240, .update (.str "ada") (.map [("moniker", .str "Countess"), ("user_id", .str "eve"),
      ("last_mod_date", .str "never"), ("note", .null)])),
    (300, .update (.str "eve") (.map [("note", .str "second")])),
    (360, .delete (.str "bob"))]

theorem stay_eq {r : Registry} (hr : r.schema = noteSchema) {m : Mounted Store}
    (h : m.IsSetUp .database noteSchema) :
    (r.run m stay).1 = (r.run (Book.mk noteSchema.fields []) stay).1 ∧
      ∀ id, RecordStore.fetch (r.run m stay).2 id =
        RecordStore.fetch (r.run (Book.mk noteSchema.fields []) stay).2 id := by
  rw [← hr] at h ⊢
  have hschema : r.schema.Sound := hr.symm ▸ sound_noteSchema
  have hshield : ∀ name ∈ r.schema.fields, ColumnName.unshield name.toList = name.toList := by
    rw [hr]
    exact fun name hname => ColumnName.unshield_of_isIdentifier (isIdentifier_noteSchema name hname)
  have haffords : r.Affords m.store ⟨r.schema.fields, []⟩ stay := by
    constructor
    · intro front _ record _
      exact admits_of_isSetUp h record
    · simp only [stay, List.forall_mem_cons]
      exact ⟨trivial, trivial, trivial, trivial, trivial, trivial, List.forall_mem_nil _⟩
  have hbook := Book.sound_empty hschema.nodup hschema.known
  have hholds := (holds_of_isSetUp hschema hshield h).1
  rcases run_eq_of_holds hholds hbook hschema rfl haffords with ⟨hreplies, -, hlast⟩
  rcases (preserves_sound r).run hschema ⟨hbook, rfl⟩ stay with ⟨hsound, -⟩
  exact ⟨hreplies, hlast.fetch hsound⟩

end Registry
end Roster
