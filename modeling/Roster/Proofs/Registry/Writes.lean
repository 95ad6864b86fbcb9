import Roster.Proofs.Registry.Application
import Roster.Proofs.Store.Readable

/-!
# A change keeps a store readable

A user who was registered or changed with success can be shown then, and whoever could be shown or
was listed before still is, as long as the store can read the record again that it wrote.
-/

namespace Roster

/-!
## Records that are written
-/

namespace Record

theorem stampNew_ne_nil (fields : List String) (now : Moment) (id : String) (record : Record) :
    record.stampNew fields now id ≠ [] := by
  intro hnil
  have hlookup := lookup_stampNew fields now id record idField
  rw [hnil, if_pos rfl] at hlookup
  cases hlookup

theorem setAll_stampChanges_ne_nil (before : Record) (fields : List String) (now : Moment)
    (changes : Record) : Entries.setAll before (changes.stampChanges fields now) ≠ [] := by
  intro hnil
  have hmodified : modifiedField ∈ Entries.keys (changes.stampChanges fields now).reverse := by
    rw [Entries.keys_reverse, List.mem_reverse, Entries.mem_keys_iff_isSome, lookup_stampChanges,
      if_pos rfl, Option.isSome_some]
  rw [Entries.mem_keys_iff_isSome, Option.isSome_iff_exists] at hmodified
  rcases hmodified with ⟨stamp, hstamp⟩
  have hlookup := Entries.lookup_setAll before (changes.stampChanges fields now) modifiedField
  rw [hnil, hstamp, Option.some_or] at hlookup
  cases hlookup

end Record

namespace Registry

/-!
## What is shown and listed
-/

theorem idOf?_eq_some_iff {v : Value} {id : String} :
    idOf? v = some id ↔ v = .str id ∧ (Text.strip id != "") = true := by
  rw [idOf?, Option.filter_eq_some_iff]
  refine and_congr_left fun _ => ?_
  cases v <;> simp [Value.text?]

section Shown

variable {σ : Type} [RecordStore σ] {store : σ} {r : Registry} {id : String} {user : Record}

/-- A user is shown with a record. -/
def Shows (store : σ) (id : String) (user : Record) : Prop :=
  get store (.str id) .null = .ok ⟨.found user, id, []⟩

theorem shows_iff : Shows store id user ↔
    idOf? (.str id) = some id ∧ RecordStore.fetch store id = .ok user := by
  constructor
  · intro hshows
    rw [Shows, get] at hshows
    cases hid : idOf? (.str id) with
    | none =>
        rw [hid] at hshows
        cases hshows
    | some known =>
        have hknown : id = known := Value.str.inj (idOf?_eq_some_iff.mp hid).1
        subst hknown
        refine ⟨rfl, ?_⟩
        rw [hid] at hshows
        dsimp only at hshows
        cases hfetch : RecordStore.fetch store id with
        | ok found =>
            rw [hfetch] at hshows
            cases hshows
            rfl
        | error failure =>
            rw [hfetch] at hshows
            cases failure with
            | refused refusal => cases hshows
            | broken fault => cases hshows
  · exact fun h => get_of_fetch h.1 h.2

/-- The users that are listed are those that the store lists for the filter that was meant. -/
theorem list_eq_ok_iff {filter : Value} {users : List Record} :
    (∃ listing, r.list store filter = .ok listing ∧ listing.records = .ok users) ↔
      ∃ f, Filter.ofValue filter (.list (r.schema.fields.map .str)) = .ok f ∧
        RecordStore.list store f = .ok users := by
  rw [list]
  cases hf : Filter.ofValue filter (.list (r.schema.fields.map .str)) with
  | error fault =>
      constructor
      · rintro ⟨listing, hlisting, -⟩
        cases hlisting
      · rintro ⟨f, heq, -⟩
        cases heq
  | ok f =>
      have hlift : (liftM (Except.ok f : Except ValueFault Filter) : Except Fault Filter) = .ok f := rfl
      simp only [hlift, bind, Except.bind, Except.ok.injEq, exists_eq_left']
      cases RecordStore.list store f with
      | ok records => simp [Failure.settle, pure, Except.pure]
      | error failure =>
          cases failure with
          | refused refusal => simp [Failure.settle, pure, Except.pure]
          | broken fault => simp [Failure.settle]

end Shown

/-!
## Changes
-/

/-- From one store to the next, a user was written who is shown then; all others are shown and
listed as before. -/
structure StaysReadable (r : Registry) (m : Mounted Store) (id : String) (m' : Mounted Store) :
    Prop where
  written : ∃ user, Shows m' id user
  others : ∀ other ≠ id, ∀ user, Shows m other user → Shows m' other user
  listed : ∀ filter, r.Takes m.store (.list filter) → ∀ listing users,
    r.list m filter = .ok listing → listing.records = .ok users →
    ∃ listing' users', r.list m' filter = .ok listing' ∧ listing'.records = .ok users' ∧
      ∀ user ∈ users, user ∈ users' ∨ Shows m id user

variable {r : Registry} {m m' : Mounted Store} {now : Moment} {entries : Entries} {a : UserAnswer}

theorem staysReadable_of_wrote {id : String} {record : Record} (h : m.Stands r.schema.fields)
    (h' : m'.Stands r.schema.fields) (hwrote : m.Wrote id record m') (hne : record ≠ [])
    (hid : idOf? (.str id) = some id) (hcan : m.store.CanShow record) :
    r.StaysReadable m id m' := by
  have hshown := Store.exists_shows hne hcan
  refine ⟨?_, fun other hother user hshows => ?_,
    fun filter htakes listing users hlisting husers => ?_⟩
  · rcases hshown with ⟨shown, hshown⟩
    exact ⟨shown, shows_iff.mpr ⟨hid, (hwrote.shown shown).mpr hshown⟩⟩
  · rw [shows_iff] at hshows ⊢
    exact ⟨hshows.1, hwrote.after hshown other hother user hshows.2⟩
  · rcases list_eq_ok_iff.mp ⟨listing, hlisting, husers⟩ with ⟨f, hf, hlist⟩
    rcases hwrote.list h h' hshown (Filter.isOver_ofValue hf) (htakes f hf) hlist with
      ⟨users', hlist', hkept⟩
    rcases list_eq_ok_iff.mpr ⟨f, hf, hlist'⟩ with ⟨listing', hlisting', husers'⟩
    refine ⟨listing', users', hlisting', husers', fun user huser => ?_⟩
    exact (hkept user huser).imp (fun hmem => hmem) fun hfetch => shows_iff.mpr ⟨hid, hfetch⟩

/-- Whatever a store was asked for before: when a user is registered or changed with success, that
user can be shown afterwards, and whoever could be shown or was listed before still is, as long as
no cell of the record is too long for a file and no name of a field too long for a document. -/
theorem staysReadable_of_change {config : Value} {schema : Schema} {warnings : List SchemaWarning}
    (hschema : Schema.assemble config = .ok (schema, warnings)) {backend : Backend}
    (hshield : backend = .database →
      ∀ name ∈ schema.fields, ColumnName.unshield name.toList = name.toList)
    (hr : r.schema = schema) (hreached : Mounted.Reached backend schema m) (now : Moment)
    (hsuccess : a.success = true) :
    ((r.answer m now (.register (.map entries))).1 = .ok (.user a) →
      m.store.CanShow (r.registered now entries) →
      r.StaysReadable m a.id (r.answer m now (.register (.map entries))).2) ∧
    ∀ id, (r.answer m now (.update id (.map entries))).1 = .ok (.user a) →
      ∃ before, get m id .null = .ok ⟨.found before, a.id, []⟩ ∧
        (m.store.CanShow (r.updated now entries before) →
          r.StaysReadable m a.id (r.answer m now (.update id (.map entries))).2) := by
  subst hr
  have hsound := Schema.assemble_sound hschema
  have hstands := hreached.stands hsound hshield
  constructor
  · intro hreply hcan
    rcases register_eq_ok (of_conclude_eq hreply) hsuccess with ⟨hvalid, hfree, -, hinsert, rfl⟩
    have hfetch := fetch_ne_ok_of_isStored hfree
    have hfull := keys_newRecord hsound ((supplied entries).valueOf Record.idField)
      ((supplied entries).valueOf monikerField) (r.verdict (checked entries)).accepted
    exact staysReadable_of_wrote hstands (hstands.insert hvalid hfull hfetch hinsert).2.1
      (hstands.wrote_of_insert hvalid hfull hfetch hinsert) (Record.stampNew_ne_nil _ _ _ _)
      (idOf?_of_isUserId hvalid) hcan
  · intro id hreply
    rcases update_eq_ok (of_conclude_eq hreply) hsuccess with ⟨known, hid, hstored, -, hupdate, rfl⟩
    rcases isStored_eq_true_iff.mp hstored with ⟨before, hbefore⟩
    refine ⟨before, get_of_fetch hid hbefore, fun hcan => ?_⟩
    have htext : id = .str known := (idOf?_eq_some_iff.mp hid).1
    subst htext
    exact staysReadable_of_wrote hstands (hstands.update hbefore hupdate).2.1
      (hstands.wrote_of_update hbefore hupdate) (Record.setAll_stampChanges_ne_nil _ _ _ _) hid hcan

theorem canShow_of_reached {schema : Schema} (hschema : schema.Sound)
    (h : Mounted.Reached .database schema m) (record : Record) : m.store.CanShow record := by
  have hbackend := h.backend_eq hschema
  cases hstore : m.store with
  | table s => exact trivial
  | _ =>
      rw [hstore] at hbackend
      cases hbackend

/-- A user is registered with a note, and then the note is taken away. -/
theorem staysReadable_of_change_of_clearing :
    ∃ m : Mounted Store, Mounted.Reached .database noteSchema m ∧
      noteRegistry.StaysReadable m "ada" (noteRegistry.answer m 0 (.register (.map noted))).2 ∧
      noteRegistry.StaysReadable (noteRegistry.answer m 0 (.register (.map noted))).2 "ada"
        (noteRegistry.answer (noteRegistry.answer m 0 (.register (.map noted))).2 0
          (.update (.str "ada") (.map [("note", .str "")]))).2 := by
  rcases assemble_noteSetup with ⟨warnings, hassemble⟩
  rcases exists_isSetUp_noteSchema .database with ⟨m, hsetup⟩
  have hreplies := replies_of_clearing hsetup
  rw [clearing, run_cons, run_cons, List.cons.injEq, List.cons.injEq] at hreplies
  rcases hreplies with ⟨hregister, hupdate, -⟩
  have hshield : Backend.database = .database →
      ∀ name ∈ noteSchema.fields, ColumnName.unshield name.toList = name.toList :=
    fun _ name hname => ColumnName.unshield_of_isIdentifier (isIdentifier_noteSchema name hname)
  have hfirst : Mounted.Reached .database noteSchema m := .setUp hsetup
  have hsecond := hfirst.asked noteRegistry rfl 0 (.register (.map noted))
  rcases (staysReadable_of_change hassemble hshield rfl hsecond 0 rfl).2 _ hupdate with
    ⟨before, -, hstays⟩
  refine ⟨m, hfirst, ?_, hstays ?_⟩
  · exact (staysReadable_of_change hassemble hshield rfl hfirst 0 rfl).1 hregister
      (canShow_of_reached sound_noteSchema hfirst _)
  · exact canShow_of_reached sound_noteSchema hsecond _

end Registry
end Roster
