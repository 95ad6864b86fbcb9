import Roster.Proofs.Filter.Reading
import Roster.Proofs.Schema.Assembly
import Roster.Proofs.Store.Mounted
import Roster.Registry.Users

/-!
# Requests one after the other

A registry is asked for one thing after another.  A request that is broken off leaves the store as
it was.  On a book, requests keep the book sound; on a store that holds the records of the book, the
replies are those that the book gives.
-/

namespace Roster

/-- What a registry is asked for. -/
inductive Request where
  | register (data : Value)
  | get (id fields : Value)
  | update (id changes : Value)
  | delete (id : Value)
  | list (filter : Value)
  deriving DecidableEq, Repr

deriving instance DecidableEq for UserListing

/-- What a registry answers. -/
inductive Reply where
  | user (answer : UserAnswer)
  | listing (listing : UserListing)
  deriving DecidableEq

namespace Registry

section Runs

variable {σ : Type} [RecordStore σ]

/-- The reply to a change, and the store behind it. -/
def conclude (store : σ) : Except Fault (UserAnswer × σ) → Except Fault Reply × σ
  | .ok (answer, store) => (.ok (.user answer), store)
  | .error fault => (.error fault, store)

/-- The reply to a request, and the store behind it. -/
def answer (r : Registry) (store : σ) (now : Moment) : Request → Except Fault Reply × σ
  | .register data => conclude store (r.register store now data)
  | .get id fields => ((get store id fields).map .user, store)
  | .update id changes => conclude store (r.update store now id changes)
  | .delete id => conclude store (delete store id)
  | .list filter => ((r.list store filter).map .listing, store)

/-- The replies to requests one after the other, and the store behind them. -/
def run (r : Registry) (store : σ) : List (Moment × Request) → List (Except Fault Reply) × σ
  | [] => ([], store)
  | (now, request) :: rest =>
      let (reply, next) := r.answer store now request
      let (replies, last) := r.run next rest
      (reply :: replies, last)

@[simp] theorem run_nil (r : Registry) (store : σ) : r.run store [] = ([], store) := rfl

@[simp] theorem run_cons (r : Registry) (store : σ) (now : Moment) (request : Request)
    (rest : List (Moment × Request)) :
    r.run store ((now, request) :: rest) =
      ((r.answer store now request).1 :: (r.run (r.answer store now request).2 rest).1,
        (r.run (r.answer store now request).2 rest).2) := rfl

end Runs

/-!
## New records
-/

/-- What a new user is stored as, before it is stamped. -/
def newRecord (r : Registry) (id moniker : String) (accepted : Record) : Record :=
  Entries.set (Entries.set (Entries.setAll r.initialRecord (r.storable accepted))
    Record.idField id) monikerField moniker

theorem keys_initialRecord {r : Registry} (h : r.schema.Sound) :
    Entries.keys r.initialRecord = r.schema.fields := by
  have hkeys : Entries.keys (r.schema.fields.map fun name => (name, initialValue r.schema name)) =
      r.schema.fields := by
    rw [Entries.keys, List.map_map]
    exact List.map_id _
  rw [initialRecord, Entries.setAll_nil_of_nodup (hkeys.symm ▸ h.nodup), hkeys]

theorem mem_keys_storable {r : Registry} (h : r.schema.Sound) {data : Record} {name : String}
    (hname : name ∈ Entries.keys (r.storable data)) : name ∈ r.schema.fields := by
  rcases List.mem_map.mp hname with ⟨entry, hentry, rfl⟩
  have hkept := (List.mem_filter.mp hentry).2
  rw [Bool.and_eq_true] at hkept
  exact (h.has_iff entry.1).mp hkept.1

theorem idField_mem_fields {r : Registry} (h : r.schema.Sound) :
    Record.idField ∈ r.schema.fields :=
  h.core Record.idField (by decide)

theorem keys_newRecord {r : Registry} (h : r.schema.Sound) (id moniker : String)
    (accepted : Record) : Entries.keys (r.newRecord id moniker accepted) = r.schema.fields := by
  have hoverlaid : Entries.keys (Entries.setAll r.initialRecord (r.storable accepted)) =
      r.schema.fields := by
    rw [Entries.keys_setAll_of_subset, keys_initialRecord h]
    intro name hname
    rw [keys_initialRecord h]
    exact mem_keys_storable h hname
  have hid := Entries.keys_set_of_mem id (hoverlaid.symm ▸ idField_mem_fields h)
  have hmoniker : monikerField ∈ r.schema.fields := h.core monikerField (by decide)
  rw [newRecord, Entries.keys_set_of_mem moniker (hid.symm ▸ hoverlaid.symm ▸ hmoniker), hid,
    hoverlaid]

/-!
## Requests that are carried out
-/

/-- The data with which a user is registered: a store sets the times itself. -/
def supplied (entries : Entries) : Record :=
  without timeFields (clean entries)

/-- The data of a new user that are checked: id and moniker have rules of their own. -/
def checked (entries : Entries) : Record :=
  without [Record.idField, monikerField] (supplied entries)

/-- The changes of a user that are checked. -/
def checkedChanges (entries : Entries) : Record :=
  without Record.readOnlyFields (clean entries)

section Effects

variable {σ : Type} [RecordStore σ]

/-- What a request does to a store, with the reply to it: a request that is not carried out leaves
the store alone. -/
inductive Does (r : Registry) (store : σ) (now : Moment) :
    Request → Except Fault Reply × σ → Prop where
  | reads {request : Request} (reply : Except Fault Reply)
      (hrequest : (∃ id fields, request = .get id fields) ∨ ∃ filter, request = .list filter) :
      Does r store now request (reply, store)
  | refuses {request : Request} (reply : Except Fault Reply)
      (hreply : ∀ a, reply = .ok (.user a) → a.success = false) :
      Does r store now request (reply, store)
  | registers {entries : Entries} {id : String} {store' : σ}
      (hid : (supplied entries).valueOf Record.idField = id) (hvalid : isUserId id = true)
      (hmoniker : Grammar.isMoniker ((supplied entries).valueOf monikerField).toList = true)
      (hfree : isStored store id = .ok false)
      (hverdict : (r.verdict (checked entries)).success = true)
      (hinsert : RecordStore.insert store now id (r.newRecord id
        ((supplied entries).valueOf monikerField) (r.verdict (checked entries)).accepted) =
          .ok store') :
      Does r store now (.register (.map entries))
        (.ok (.user ⟨.done .created, id, (r.verdict (checked entries)).warnings⟩), store')
  | updates {id : Value} {entries : Entries} {known : String} {store' : σ}
      (hid : idOf? id = some known) (hstored : isStored store known = .ok true)
      (hverdict : (r.verdict (checkedChanges entries)).success = true)
      (hupdate : RecordStore.update store now known
        (r.storable (r.verdict (checkedChanges entries)).accepted) = .ok store') :
      Does r store now (.update id (.map entries))
        (.ok (.user ⟨.done .updated, known, (r.verdict (checkedChanges entries)).warnings⟩), store')
  | deletes {id : Value} {known : String} {store' : σ} (hid : idOf? id = some known)
      (hstored : isStored store known = .ok true)
      (hremove : RecordStore.remove store known = .ok store') :
      Does r store now (.delete id) (.ok (.user ⟨.done .deleted, known, []⟩), store')

variable {r : Registry} {store : σ} {now : Moment} {request : Request}

theorem does_unchanged (refusal : UserRefusal) (id : String) (warnings : List String) :
    r.Does store now request (conclude store (unchanged store (.refused refusal) id warnings)) :=
  .refuses _ fun _ ha => by
    cases ha
    rfl

theorem does_broken (fault : Fault) :
    r.Does store now request (conclude store (.error fault)) :=
  .refuses _ fun _ ha => nomatch ha

theorem does_perform {deed : Deed} {id : String} {warnings : List String}
    {change : Except Failure σ}
    (hchange : ∀ store', change = .ok store' →
      r.Does store now request (.ok (.user ⟨.done deed, id, warnings⟩), store')) :
    r.Does store now request (conclude store (perform store deed id warnings change)) := by
  cases change with
  | ok store' => exact hchange store' rfl
  | error failure =>
      cases failure with
      | refused refusal => exact does_unchanged (.store refusal) id warnings
      | broken fault => exact does_broken fault

theorem does_register (data : Value) :
    r.Does store now (.register data) (r.answer store now (.register data)) := by
  rw [answer, register.eq_def]
  cases data with
  | map entries =>
      dsimp only
      split
      · exact does_unchanged .invalidId "" []
      · rename_i hvalid
        split
        · exact does_unchanged .invalidMoniker _ []
        · rename_i hmoniker
          rw [registerAs]
          cases hstored : isStored store ((supplied entries).valueOf Record.idField) with
          | error fault =>
              rw [supplied] at hstored
              rw [hstored]
              exact does_broken fault
          | ok stored =>
              have hfree := hstored
              rw [supplied] at hstored
              rw [hstored]
              cases stored with
              | true => exact does_unchanged (.alreadyExists _) _ []
              | false =>
                  simp only [bind, Except.bind, Bool.false_eq_true, if_false]
                  split
                  · rename_i hverdict
                    exact does_perform fun store' hinsert =>
                      .registers rfl (by simpa [supplied] using hvalid) (by simpa [supplied] using hmoniker) hfree
                        hverdict hinsert
                  · exact does_unchanged (.rejected _) _ _
  | _ => exact does_unchanged .dataNotMap "" []

theorem does_update (id changes : Value) :
    r.Does store now (.update id changes) (r.answer store now (.update id changes)) := by
  rw [answer, update.eq_def]
  split
  · exact does_unchanged .missingId "" []
  · rename_i _ _ known entries hid
    cases hstored : isStored store known with
    | error fault => exact does_broken fault
    | ok stored =>
        cases stored with
        | false => exact does_unchanged (.notFound known) known []
        | true =>
            simp only [bind, Except.bind, if_true]
            split
            · rename_i hverdict
              exact does_perform fun store' hupdate => .updates hid hstored hverdict hupdate
            · exact does_unchanged (.rejected _) known _
  · exact does_unchanged .changesNotMap _ []

theorem does_delete (id : Value) :
    r.Does store now (.delete id) (r.answer store now (.delete id)) := by
  rw [answer, delete]
  split
  · exact does_unchanged .missingId "" []
  · rename_i known hid
    cases hstored : isStored store known with
    | error fault => exact does_broken fault
    | ok stored =>
        cases stored with
        | false => exact does_unchanged (.notFound known) known []
        | true =>
            simp only [bind, Except.bind, if_true]
            exact does_perform fun store' hremove => .deletes hid hstored hremove

theorem does_answer (r : Registry) (store : σ) (now : Moment) (request : Request) :
    r.Does store now request (r.answer store now request) := by
  cases request with
  | register data => exact does_register data
  | get id fields => exact .reads _ (Or.inl ⟨id, fields, rfl⟩)
  | update id changes => exact does_update id changes
  | delete id => exact does_delete id
  | list filter => exact .reads _ (Or.inr ⟨filter, rfl⟩)


omit [RecordStore σ] in
theorem of_conclude_eq {x : Except Fault (UserAnswer × σ)} {a : UserAnswer}
    (h : (conclude store x).1 = .ok (.user a)) : x = .ok (a, (conclude store x).2) := by
  cases x with
  | error fault => cases h
  | ok result =>
      rcases result with ⟨answer, next⟩
      cases h
      rfl

theorem register_eq_ok {store' : σ} {a : UserAnswer} {entries : Entries}
    (h : r.register store now (.map entries) = .ok (a, store')) (hsuccess : a.success = true) :
    let id := (supplied entries).valueOf Record.idField
    isUserId id = true ∧ isStored store id = .ok false ∧
      (r.verdict (checked entries)).success = true ∧
      RecordStore.insert store now id (r.newRecord id ((supplied entries).valueOf monikerField)
        (r.verdict (checked entries)).accepted) = .ok store' ∧
      a = ⟨.done .created, id, (r.verdict (checked entries)).warnings⟩ := by
  have hdoes := does_answer r store now (.register (.map entries))
  rw [answer, h] at hdoes
  cases hdoes with
  | reads _ hrequest => simp at hrequest
  | refuses _ hreply =>
      rw [hreply a rfl] at hsuccess
      cases hsuccess
  | registers hid hvalid _ hfree hverdict hinsert =>
      subst hid
      exact ⟨hvalid, hfree, hverdict, hinsert, rfl⟩

theorem update_eq_ok {store' : σ} {a : UserAnswer} {id : Value} {entries : Entries}
    (h : r.update store now id (.map entries) = .ok (a, store')) (hsuccess : a.success = true) :
    ∃ known, idOf? id = some known ∧ isStored store known = .ok true ∧
      (r.verdict (checkedChanges entries)).success = true ∧
      RecordStore.update store now known
        (r.storable (r.verdict (checkedChanges entries)).accepted) = .ok store' ∧
      a = ⟨.done .updated, known, (r.verdict (checkedChanges entries)).warnings⟩ := by
  have hdoes := does_answer r store now (.update id (.map entries))
  rw [answer, h] at hdoes
  cases hdoes with
  | reads _ hrequest => simp at hrequest
  | refuses _ hreply =>
      rw [hreply a rfl] at hsuccess
      cases hsuccess
  | updates hid hstored hverdict hupdate =>
      exact ⟨_, hid, hstored, hverdict, hupdate, rfl⟩

theorem get_of_fetch {id : Value} {known : String} {user : Record} (hid : idOf? id = some known)
    (hfetch : RecordStore.fetch store known = .ok user) :
    get store id .null = .ok ⟨.found user, known, []⟩ := by
  rw [get, hid]
  simp only [hfetch]
  rfl

end Effects

/-!
## What requests preserve
-/

/-- Whatever the store is asked to do by a registry keeps the property. -/
structure Preserves {σ : Type} [RecordStore σ] (r : Registry) (P : σ → Prop) : Prop where
  insert : ∀ {store store' : σ} {now : Moment} {id : String} {record : Record}, P store →
    isUserId id = true → isStored store id = .ok false → Entries.keys record = r.schema.fields →
    RecordStore.insert store now id record = .ok store' → P store'
  update : ∀ {store store' : σ} {now : Moment} {id : String} {changes : Record}, P store →
    isStored store id = .ok true → RecordStore.update store now id changes = .ok store' → P store'
  remove : ∀ {store store' : σ} {id : String}, P store → isStored store id = .ok true →
    RecordStore.remove store id = .ok store' → P store'

section Preservation

variable {σ : Type} [RecordStore σ] {r : Registry} {P : σ → Prop} {store : σ}

/-- Every request keeps the property. -/
theorem Preserves.answer (h : r.Preserves P) (hschema : r.schema.Sound) (hstore : P store)
    (now : Moment) (request : Request) : P (r.answer store now request).2 := by
  have hdoes := does_answer r store now request
  generalize r.answer store now request = result at hdoes
  cases hdoes with
  | reads reply _ => exact hstore
  | refuses reply _ => exact hstore
  | registers _ hvalid _ hfree _ hinsert =>
      exact h.insert hstore hvalid hfree (keys_newRecord hschema _ _ _) hinsert
  | updates _ hstored _ hupdate => exact h.update hstore hstored hupdate
  | deletes _ hstored hremove => exact h.remove hstore hstored hremove

theorem Preserves.run (h : r.Preserves P) (hschema : r.schema.Sound) (hstore : P store)
    (requests : List (Moment × Request)) : P (r.run store requests).2 := by
  induction requests generalizing store with
  | nil => exact hstore
  | cons entry rest ih =>
      rcases entry with ⟨now, request⟩
      rw [run_cons]
      exact ih (h.answer hschema hstore now request)

end Preservation

/-!
## Books under requests
-/

section Books

variable {r : Registry} {b : Book}

theorem isStored_of_fetch {σ : Type} [RecordStore σ] {store : σ} {id : String}
    (h : RecordStore.fetch store id = RecordStore.fetch b id) :
    isStored store id = .ok (b.find? id).isSome := by
  rw [isStored, h]
  simp only [RecordStore.fetch]
  cases b.find? id with
  | none => rfl
  | some record => rfl

theorem insert_newRecord (h : r.schema.Sound) {id : String} (hvalid : isUserId id = true)
    (hfree : b.find? id = none) (now : Moment) (moniker : String) (accepted : Record) :
    RecordStore.insert b now id (r.newRecord id moniker accepted) =
      .ok (b.add ((r.newRecord id moniker accepted).stampNew b.fields now id)) := by
  have hid : (id == "") = false := by
    simpa using isUserId_ne_empty hvalid
  have hrecord : (r.newRecord id moniker accepted).isEmpty = false := by
    rw [List.isEmpty_eq_false_iff]
    intro hnil
    have hkeys := keys_newRecord h id moniker accepted
    rw [hnil] at hkeys
    have hmem := idField_mem_fields h
    rw [← hkeys] at hmem
    cases hmem
  simp only [RecordStore.insert, RecordStore.checkNew, hid, hrecord, hfree]
  rfl

theorem preserves_sound (r : Registry) :
    r.Preserves fun b : Book => b.Sound ∧ b.fields = r.schema.fields where
  insert := by
    rintro b b' now id record ⟨hsound, hfields⟩ hvalid - hfull hinsert
    rcases Book.insert_eq_ok hinsert with ⟨-, hfree, rfl⟩
    exact ⟨(hsound.add_stampNew (hfull.trans hfields.symm) hvalid hfree now).1, hfields⟩
  update := by
    rintro b b' now id changes ⟨hsound, hfields⟩ - hupdate
    rcases Book.update_eq_ok hupdate with ⟨-, rfl⟩
    exact ⟨hsound.change id now changes, hfields⟩
  remove := by
    rintro b b' id ⟨hsound, hfields⟩ - hremove
    rcases Book.remove_eq_ok hremove with ⟨-, rfl⟩
    exact ⟨hsound.drop id, hfields⟩

end Books
end Registry
end Roster
