import Mathlib.Data.List.Find
import Roster.Proofs.Check.LoginName
import Roster.Proofs.Store.Record

/-!
# Books

A book is a store that is nothing but its records, in the order in which they were added.  Every
backend keeps the records of a book in its own way.
-/

namespace Roster

/-- Records with the fields that they have. -/
structure Book where
  fields : List String
  records : List Record := []
  deriving DecidableEq, Repr

namespace Book

def find? (b : Book) (id : String) : Option Record :=
  b.records.find? fun record => record.id == id

def add (b : Book) (record : Record) : Book :=
  { b with records := b.records ++ [record] }

/-- A record after changes, if it is the one with the id. -/
def changed (id : String) (changes record : Record) : Record :=
  if record.id == id then Entries.setAll record changes else record

def change (b : Book) (id : String) (changes : Record) : Book :=
  { b with records := b.records.map (changed id changes) }

/-- Take the record with an id away. -/
def drop (b : Book) (id : String) : Book :=
  { b with records := b.records.filter fun record => record.id != id }

instance : RecordStore Book where
  insert b now id record := do
    RecordStore.checkNew id record
    if (b.find? id).isSome then .error (.refused (.alreadyExists id))
    else .ok (b.add (record.stampNew b.fields now id))
  fetch b id := (b.find? id).elim (.error (.refused (.notFound id))) .ok
  update b now id changes :=
    if (b.find? id).isSome then .ok (b.change id (changes.stampChanges b.fields now))
    else .error (.refused (.notFound id))
  remove b id :=
    if (b.find? id).isSome then .ok (b.drop id) else .error (.refused (.notFound id))
  list b filter := .ok (Record.sortById (b.records.filter filter.selects))

/-!
## Requests that are carried out
-/

theorem insert_eq_ok {b b' : Book} {now : Moment} {id : String} {record : Record}
    (h : RecordStore.insert b now id record = .ok b') :
    RecordStore.checkNew id record = .ok () ∧ b.find? id = none ∧
      b' = b.add (record.stampNew b.fields now id) := by
  simp only [RecordStore.insert] at h
  cases hnew : RecordStore.checkNew id record with
  | error failure =>
      rw [hnew] at h
      cases h
  | ok _ =>
      rw [hnew] at h
      simp only [bind, Except.bind] at h
      split at h
      · cases h
      · rename_i hfree
        rw [Bool.not_eq_true, Option.isSome_eq_false_iff, Option.isNone_iff_eq_none] at hfree
        exact ⟨rfl, hfree, (Except.ok.inj h).symm⟩

theorem update_eq_ok {b b' : Book} {now : Moment} {id : String} {changes : Record}
    (h : RecordStore.update b now id changes = .ok b') :
    (b.find? id).isSome = true ∧ b' = b.change id (changes.stampChanges b.fields now) := by
  simp only [RecordStore.update] at h
  split at h
  · exact ⟨‹_›, (Except.ok.inj h).symm⟩
  · cases h

theorem remove_eq_ok {b b' : Book} {id : String} (h : RecordStore.remove b id = .ok b') :
    (b.find? id).isSome = true ∧ b' = b.drop id := by
  simp only [RecordStore.remove] at h
  split at h
  · exact ⟨‹_›, (Except.ok.inj h).symm⟩
  · cases h

theorem insert_of_free {b : Book} {id : String} {record : Record}
    (hnew : RecordStore.checkNew id record = .ok ()) (hfree : b.find? id = none) (now : Moment) :
    RecordStore.insert b now id record = .ok (b.add (record.stampNew b.fields now id)) := by
  simp only [RecordStore.insert, hnew, hfree]
  rfl

theorem update_of_found {b : Book} {id : String} {old : Record} (hfound : b.find? id = some old)
    (now : Moment) (changes : Record) :
    RecordStore.update b now id changes =
      .ok (b.change id (changes.stampChanges b.fields now)) := by
  simp only [RecordStore.update, hfound]
  rfl

theorem remove_of_found {b : Book} {id : String} {old : Record} (hfound : b.find? id = some old) :
    RecordStore.remove b id = .ok (b.drop id) := by
  simp only [RecordStore.remove, hfound]
  rfl

theorem fields_of_insert {b b' : Book} {now : Moment} {id : String} {record : Record}
    (h : RecordStore.insert b now id record = .ok b') : b'.fields = b.fields := by
  rcases insert_eq_ok h with ⟨-, -, rfl⟩
  rfl

theorem fields_of_update {b b' : Book} {now : Moment} {id : String} {changes : Record}
    (h : RecordStore.update b now id changes = .ok b') : b'.fields = b.fields := by
  rcases update_eq_ok h with ⟨-, rfl⟩
  rfl

theorem of_remove {b b' : Book} {id : String} (h : RecordStore.remove b id = .ok b') :
    b'.fields = b.fields ∧ ∀ record ∈ b'.records, record ∈ b.records := by
  rcases remove_eq_ok h with ⟨-, rfl⟩
  exact ⟨rfl, fun record hrecord => List.mem_of_mem_filter hrecord⟩

theorem fetch_eq_ok_iff {b : Book} {id : String} {record : Record} :
    RecordStore.fetch b id = .ok record ↔ b.find? id = some record := by
  simp only [RecordStore.fetch]
  cases b.find? id with
  | none => simp
  | some other => simp

/-!
## Keyed and sound books
-/

/-- The records of the book have all fields, and ids that tell them apart; none of them is blank. -/
structure Keyed (b : Book) : Prop where
  fields_nodup : b.fields.Nodup
  idField_mem : Record.idField ∈ b.fields
  full : ∀ record ∈ b.records, Entries.keys record = b.fields
  filled : ∀ record ∈ b.records, ∃ entry ∈ record, Text.trim entry.2.toList ≠ []
  ids_ne_empty : ∀ record ∈ b.records, record.id ≠ ""
  ids_nodup : (b.records.map Record.id).Nodup

theorem Keyed.idField_mem_keys {b : Book} (h : b.Keyed) {record : Record}
    (hrecord : record ∈ b.records) : Record.idField ∈ Entries.keys record := by
  rw [h.full record hrecord]
  exact h.idField_mem

theorem Keyed.keys_nodup {b : Book} (h : b.Keyed) {record : Record}
    (hrecord : record ∈ b.records) : (Entries.keys record).Nodup := by
  rw [h.full record hrecord]
  exact h.fields_nodup

/-- What every book is that a registry writes: its records have all fields, and ids that are login
names and tell them apart. -/
structure Sound (b : Book) : Prop where
  fields_nodup : b.fields.Nodup
  known : ∀ field ∈ Record.readOnlyFields, field ∈ b.fields
  full : ∀ record ∈ b.records, Entries.keys record = b.fields
  ids_valid : ∀ record ∈ b.records, isUserId record.id = true
  ids_nodup : (b.records.map Record.id).Nodup

theorem Sound.idField_mem {b : Book} (h : b.Sound) : Record.idField ∈ b.fields :=
  h.known Record.idField (by simp [Record.readOnlyFields])

theorem Sound.idField_mem_keys {b : Book} (h : b.Sound) {record : Record}
    (hrecord : record ∈ b.records) : Record.idField ∈ Entries.keys record := by
  rw [h.full record hrecord]
  exact h.idField_mem

theorem Sound.keyed {b : Book} (h : b.Sound) : b.Keyed where
  fields_nodup := h.fields_nodup
  idField_mem := h.idField_mem
  full := h.full
  filled := by
    intro record hrecord
    refine ⟨(Record.idField, record.id), ?_, trim_ne_nil_of_isUserId (h.ids_valid record hrecord)⟩
    exact Entries.mem_of_lookup (Record.lookup_valueOf (h.idField_mem_keys hrecord))
  ids_ne_empty := fun record hrecord => isUserId_ne_empty (h.ids_valid record hrecord)
  ids_nodup := h.ids_nodup

theorem Sound.keys_nodup {b : Book} (h : b.Sound) {record : Record}
    (hrecord : record ∈ b.records) : (Entries.keys record).Nodup :=
  h.keyed.keys_nodup hrecord

theorem find?_eq_none_iff {b : Book} {id : String} :
    b.find? id = none ↔ ∀ record ∈ b.records, record.id ≠ id := by
  rw [find?, List.find?_eq_none]
  simp

theorem find?_eq_some_iff {b : Book} (hids : (b.records.map Record.id).Nodup) {id : String}
    {record : Record} :
    b.find? id = some record ↔ record ∈ b.records ∧ record.id = id := by
  constructor
  · intro hfind
    have hid := List.find?_some hfind
    exact ⟨List.mem_of_find?_eq_some hfind, eq_of_beq hid⟩
  · rintro ⟨hmem, rfl⟩
    cases hfind : b.find? record.id with
    | none => exact absurd rfl (find?_eq_none_iff.mp hfind record hmem)
    | some other =>
        have hother : other ∈ b.records := List.mem_of_find?_eq_some hfind
        have hid := List.find?_some hfind
        rw [List.inj_on_of_nodup_map hids hother hmem (eq_of_beq hid)]

theorem sound_empty {fields : List String} (hnodup : fields.Nodup)
    (hknown : ∀ field ∈ Record.readOnlyFields, field ∈ fields) : Sound ⟨fields, []⟩ where
  fields_nodup := hnodup
  known := hknown
  full := fun _ h => nomatch h
  ids_valid := fun _ h => nomatch h
  ids_nodup := List.nodup_nil

theorem Sound.add {b : Book} (h : b.Sound) {record : Record}
    (hfull : Entries.keys record = b.fields) (hvalid : isUserId record.id = true)
    (hfree : b.find? record.id = none) : (b.add record).Sound where
  fields_nodup := h.fields_nodup
  known := h.known
  full := by
    intro other hother
    rcases List.mem_append.mp hother with hold | hnew
    · exact h.full other hold
    · rw [List.mem_singleton.mp hnew]
      exact hfull
  ids_valid := by
    intro other hother
    rcases List.mem_append.mp hother with hold | hnew
    · exact h.ids_valid other hold
    · rw [List.mem_singleton.mp hnew]
      exact hvalid
  ids_nodup := by
    rw [Book.add, List.map_append, List.map_singleton]
    refine h.ids_nodup.append (List.nodup_singleton _) ?_
    intro id hold hnew
    rw [List.mem_singleton] at hnew
    rcases List.mem_map.mp hold with ⟨other, hother, hid⟩
    exact find?_eq_none_iff.mp hfree other hother (hid.trans hnew)

theorem id_changed (id : String) (fields : List String) (now : Moment) (changes record : Record) :
    (changed id (changes.stampChanges fields now) record).id = record.id := by
  rw [changed]
  split
  · exact Record.id_setAll_stampChanges fields now changes record
  · rfl

theorem map_id_change (b : Book) (id : String) (now : Moment) (changes : Record) :
    (b.change id (changes.stampChanges b.fields now)).records.map Record.id =
      b.records.map Record.id := by
  rw [change, List.map_map]
  exact List.map_congr_left fun record _ => id_changed id b.fields now changes record

theorem Sound.keys_changed {b : Book} (h : b.Sound) (id : String) (now : Moment)
    (changes : Record) {record : Record} (hrecord : record ∈ b.records) :
    Entries.keys (changed id (changes.stampChanges b.fields now) record) = b.fields := by
  rw [changed]
  split
  · exact Record.keys_setAll_stampChanges now changes h.known (h.full record hrecord)
  · exact h.full record hrecord

theorem Sound.change {b : Book} (h : b.Sound) (id : String) (now : Moment) (changes : Record) :
    (b.change id (changes.stampChanges b.fields now)).Sound where
  fields_nodup := h.fields_nodup
  known := h.known
  full := by
    intro other hother
    rcases List.mem_map.mp hother with ⟨record, hrecord, rfl⟩
    exact h.keys_changed id now changes hrecord
  ids_valid := by
    intro other hother
    rcases List.mem_map.mp hother with ⟨record, hrecord, rfl⟩
    rw [id_changed]
    exact h.ids_valid record hrecord
  ids_nodup := by
    rw [map_id_change]
    exact h.ids_nodup

theorem Sound.drop {b : Book} (h : b.Sound) (id : String) : (b.drop id).Sound where
  fields_nodup := h.fields_nodup
  known := h.known
  full := fun record hrecord => h.full record (List.mem_of_mem_filter hrecord)
  ids_valid := fun record hrecord => h.ids_valid record (List.mem_of_mem_filter hrecord)
  ids_nodup := h.ids_nodup.sublist (List.Sublist.map Record.id List.filter_sublist)

/-!
## What is found afterwards
-/

theorem Sound.add_stampNew {b : Book} (h : b.Sound) {id : String} {record : Record}
    (hfull : Entries.keys record = b.fields) (hvalid : isUserId id = true)
    (hfree : b.find? id = none) (now : Moment) :
    (b.add (record.stampNew b.fields now id)).Sound ∧
      (b.add (record.stampNew b.fields now id)).find? id =
        some (record.stampNew b.fields now id) := by
  have hid := Record.id_stampNew b.fields now id record
  constructor
  · exact h.add (Record.keys_stampNew now id h.known hfull) ((congrArg isUserId hid).trans hvalid)
      ((congrArg b.find? hid).trans hfree)
  · rw [find?] at hfree
    rw [find?, Book.add, List.find?_append, hfree, Option.none_or, List.find?_singleton, hid]
    simp

theorem find?_change {b : Book} (h : b.Sound) {id : String} {old : Record}
    (hfound : b.find? id = some old) (now : Moment) (changes : Record) :
    (b.change id (changes.stampChanges b.fields now)).find? id =
      some (Entries.setAll old (changes.stampChanges b.fields now)) := by
  rcases (find?_eq_some_iff h.ids_nodup).mp hfound with ⟨hmem, hid⟩
  rw [find?_eq_some_iff (h.change id now changes).ids_nodup]
  refine ⟨List.mem_map.mpr ⟨old, hmem, ?_⟩, ?_⟩
  · rw [changed, if_pos (beq_iff_eq.mpr hid)]
  · exact (Record.id_setAll_stampChanges b.fields now changes old).trans hid

/-- From one sound book to the next, one record was added or changed. -/
structure Wrote (b : Book) (id : String) (record : Record) (b' : Book) : Prop where
  fields : b'.fields = b.fields
  sound : b'.Sound
  find? : ∀ other, b'.find? other = if other = id then some record else b.find? other
  mem : ∀ other ∈ b'.records, other = record ∨ other ∈ b.records

theorem Wrote.mem_self {b b' : Book} {id : String} {record : Record} (h : b.Wrote id record b') :
    record ∈ b'.records := by
  have hfind := h.find? id
  rw [if_pos rfl] at hfind
  exact List.mem_of_find?_eq_some hfind

/-- What holds of all records of the book before, holds of all afterwards when it holds of the one
that was written. -/
theorem Wrote.forall_iff {b b' : Book} {id : String} {record : Record} (h : b.Wrote id record b')
    {P : Record → Prop} (hall : ∀ other ∈ b.records, P other) :
    (∀ other ∈ b'.records, P other) ↔ P record := by
  constructor
  · exact fun hnext => hnext record h.mem_self
  · intro hrecord other hother
    rcases h.mem other hother with rfl | hold
    · exact hrecord
    · exact hall other hold

theorem Sound.wrote_of_insert {b b' : Book} (h : b.Sound) {now : Moment} {id : String}
    {record : Record} (hfull : Entries.keys record = b.fields) (hvalid : isUserId id = true)
    (hinsert : RecordStore.insert b now id record = .ok b') :
    b.Wrote id (record.stampNew b.fields now id) b' := by
  rcases insert_eq_ok hinsert with ⟨-, hfree, rfl⟩
  rcases h.add_stampNew hfull hvalid hfree now with ⟨hsound, hfound⟩
  refine ⟨rfl, hsound, fun other => ?_, fun other hother => ?_⟩
  · by_cases hother : other = id
    · rw [if_pos hother, hother, hfound]
    · have hid : (Record.id (record.stampNew b.fields now id) == other) = false := by
        rw [Record.id_stampNew]
        simpa using Ne.symm hother
      rw [if_neg hother, Book.find?, Book.add, List.find?_append, List.find?_singleton, hid]
      simp [Book.find?]
  · rcases List.mem_append.mp hother with hold | hnew
    · exact Or.inr hold
    · exact Or.inl (List.mem_singleton.mp hnew)

theorem Sound.wrote_of_update {b b' : Book} (h : b.Sound) {now : Moment} {id : String}
    {changes old : Record} (hfound : b.find? id = some old)
    (hupdate : RecordStore.update b now id changes = .ok b') :
    b.Wrote id (Entries.setAll old (changes.stampChanges b.fields now)) b' := by
  rcases update_eq_ok hupdate with ⟨-, rfl⟩
  have hsound := h.change id now changes
  refine ⟨rfl, hsound, fun other => ?_, fun other hother => ?_⟩
  · by_cases hother : other = id
    · rw [if_pos hother, hother, find?_change h hfound]
    · rw [if_neg hother]
      cases hfind : b.find? other with
      | none =>
          rw [find?_eq_none_iff] at hfind ⊢
          intro record hrecord
          rcases List.mem_map.mp hrecord with ⟨before, hbefore, rfl⟩
          rw [id_changed]
          exact hfind before hbefore
      | some record =>
          rcases (find?_eq_some_iff h.ids_nodup).mp hfind with ⟨hmem, rfl⟩
          rw [find?_eq_some_iff hsound.ids_nodup]
          refine ⟨List.mem_map.mpr ⟨record, hmem, ?_⟩, rfl⟩
          rw [changed, if_neg (by simpa using hother)]
  · rcases List.mem_map.mp hother with ⟨before, hbefore, rfl⟩
    by_cases hid : before.id = id
    · have hsame : b.find? id = some before := (find?_eq_some_iff h.ids_nodup).mpr ⟨hbefore, hid⟩
      rw [hfound] at hsame
      rw [changed, if_pos (by simpa using hid), Option.some.inj hsame]
      exact Or.inl rfl
    · rw [changed, if_neg (by simpa using hid)]
      exact Or.inr hbefore

theorem isSome_find?_add (b : Book) (record : Record) (id : String) :
    ((b.add record).find? id).isSome = ((b.find? id).isSome || record.id == id) := by
  rw [find?, add, List.find?_append, List.find?_singleton, Option.isSome_or, ← find?]
  cases record.id == id with
  | false => rfl
  | true => rfl

theorem isSome_find?_change (b : Book) (id : String) (now : Moment) (changes : Record)
    (other : String) :
    ((b.change id (changes.stampChanges b.fields now)).find? other).isSome =
      (b.find? other).isSome := by
  rw [find?, change, List.find?_map, Option.isSome_map, find?]
  refine congrArg Option.isSome (List.find?_congr fun record _ => ?_)
  rw [Function.comp_apply, id_changed]

theorem find?_drop (b : Book) (id other : String) :
    (b.drop id).find? other = if other = id then none else b.find? other := by
  rw [find?, drop, List.find?_filter]
  by_cases hother : other = id
  · rw [if_pos hother, List.find?_eq_none]
    simp [hother]
  · rw [if_neg hother, find?]
    refine List.find?_congr fun record _ => ?_
    by_cases hid : record.id = other
    · simp [hid, hother]
    · simp [hid]

end Book
end Roster
