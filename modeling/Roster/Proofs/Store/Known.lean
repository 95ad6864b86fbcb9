import Roster.Proofs.Registry.MapStores
import Roster.Proofs.Store.Constraint
import Roster.Proofs.Store.Edited

/-!
# Ids that are known

An id is stored from the call that adds its record to the call that takes it away.  A store that is
asked to add a record says that the id is known when it is stored.  A file says so only as long as
it can be read, and a table only of a record that has a value for every column that must have one;
of one that has not, it speaks by the name of the column.
-/

namespace Roster

/-!
## Calls
-/

namespace Call

/-- The ids that are stored after a call. -/
def stored (ids : List String) : Call → Except Failure Outcome → List String
  | .insert _ id _, .ok _ => id :: ids
  | .remove id, .ok _ => ids.filter (· != id)
  | _, _ => ids

/-- The ids that are stored after calls one after the other. -/
def storedBy {σ : Type} [RecordStore σ] (store : σ) (ids : List String) : List Call → List String
  | [] => ids
  | call :: rest => storedBy (call.on store).2 (call.stored ids (call.on store).1) rest

/-- What a store keeps goes with the ids that are stored. -/
structure Tracks {σ : Type} [RecordStore σ] (P : σ → List String → Prop) : Prop where
  insert : ∀ {store ids now id record next}, P store ids →
    RecordStore.insert store now id record = .ok next → P next (id :: ids)
  update : ∀ {store ids now id changes next}, P store ids →
    RecordStore.update store now id changes = .ok next → P next ids
  remove : ∀ {store ids id next}, P store ids →
    RecordStore.remove store id = .ok next → P next (ids.filter (· != id))

namespace Tracks

variable {σ : Type} [RecordStore σ] {P : σ → List String → Prop} {store : σ} {ids : List String}

theorem on (h : Tracks P) (hp : P store ids) (call : Call) :
    P (call.on store).2 (call.stored ids (call.on store).1) := by
  cases call with
  | insert now id record =>
      rw [Call.on]
      cases hinsert : RecordStore.insert store now id (.ofEntries record) with
      | error failure => exact hp
      | ok next => exact h.insert hp hinsert
  | fetch id =>
      rw [Call.on]
      cases RecordStore.fetch store id with
      | error failure => exact hp
      | ok record => exact hp
  | update now id changes =>
      rw [Call.on]
      cases hupdate : RecordStore.update store now id (.ofEntries changes) with
      | error failure => exact hp
      | ok next => exact h.update hp hupdate
  | remove id =>
      rw [Call.on]
      cases hremove : RecordStore.remove store id with
      | error failure => exact hp
      | ok next => exact h.remove hp hremove
  | list filter =>
      rw [Call.on]
      cases RecordStore.list store filter with
      | error failure => exact hp
      | ok records => exact hp

theorem run (h : Tracks P) (hp : P store ids) (calls : List Call) :
    P (Call.run store calls).2 (storedBy store ids calls) := by
  induction calls generalizing store ids with
  | nil => exact hp
  | cons call rest ih => exact ih (h.on hp call)

end Tracks
end Call

/-!
## One file
-/

namespace Sheet

/-- The rows of the file have the ids, and a line can be added. Or the file is not read any more. -/
def Lists (s : Sheet) (tree : Tree) (ids : List String) : Prop :=
  (∃ text content, s.IsReadAs tree text content ∧
    Delimited.EndsRow s.format.delimiter text.toList ∧
    ∀ id, id ∈ content.rows.map Record.id ↔ id ∈ ids) ∨ s.Unreadable tree

variable {s : Sheet} {tree tree' : Tree} {ids : List String} {now : Moment} {id : String}

theorem Lists.insert (h : s.Lists tree ids) {record : Record}
    (hinsert : s.insert tree now id record = .ok tree') : s.Lists tree' (id :: ids) := by
  rcases h with ⟨text, content, hread, hended, hids⟩ | hbroken
  · rcases hread.insert_eq_ok_iff.mp hinsert with ⟨-, -, rfl⟩
    have hfile := Tree.find?_put_self (t := tree) s.isEntryKey_path
      (.file (text ++ lineOf s.format.delimiter content.header now id record).toUTF8)
    by_cases hfits : Delimited.Fits (content.header.map (Roll.newValues now id record))
    · rcases hread.appended hended hfits hfile with ⟨hnext, hnextEnded⟩
      refine Or.inl ⟨_, _, hnext, hnextEnded, fun other => ?_⟩
      have hid : Record.id (Roll.recordOf content.header (Roll.newValues now id record)) = id := by
        rw [Record.id, Roll.valueOf_recordOf hread.idField_mem, Roll.newValues, if_pos rfl]
      rw [List.map_append, List.mem_append, List.map_singleton, hid, List.mem_singleton, hids,
        List.mem_cons, or_comm]
    · exact Or.inr (hread.unreadable_of_line hended hfits hfile)
  · exact absurd hinsert (hbroken.insert_ne_ok now id record tree')

theorem Lists.update (h : s.Lists tree ids) {changes : Record}
    (hupdate : s.update tree now id changes = .ok tree') : s.Lists tree' ids := by
  rcases h with ⟨text, content, hread, -, hids⟩ | hbroken
  · rcases hread.update_eq_ok hupdate with ⟨front, row, back, hrows, -, -, hwrite⟩
    have hrow : row ∈ content.rows := hrows ▸ List.mem_append_right _ List.mem_cons_self
    by_cases hadmits : Admits (changedRow content.header now changes row)
    · rcases hread.changed hrows hadmits hwrite with ⟨hnext, hnextEnded⟩
      refine Or.inl ⟨_, _, hnext, hnextEnded, fun other => ?_⟩
      rw [← hids, hrows, List.map_append, List.map_append, List.map_cons, List.map_cons,
        changedRow, Record.id_setAll_stampChanges]
    · exact Or.inr (hread.unreadable_of_changed hrows hadmits hwrite)
  · exact absurd hupdate (hbroken.update_ne_ok now id changes tree')

theorem Lists.remove (h : s.Lists tree ids) (hremove : s.remove tree id = .ok tree') :
    s.Lists tree' (ids.filter (· != id)) := by
  rcases h with ⟨text, content, hread, -, hids⟩ | hbroken
  · have hrows : ∀ row ∈ content.rows.filter fun row => Record.id row != id,
        IsLasting content.header row :=
      fun row hrow => hread.isLasting (List.mem_of_mem_filter hrow)
    rcases hread.written hrows (hread.remove_eq_ok hremove) with ⟨hnext, hnextEnded⟩
    refine Or.inl ⟨_, _, hnext, hnextEnded, fun other => ?_⟩
    rw [List.mem_filter, ← hids, List.mem_map, List.mem_map]
    simp only [List.mem_filter]
    constructor
    · rintro ⟨row, ⟨hrow, hother⟩, rfl⟩
      exact ⟨⟨row, hrow, rfl⟩, hother⟩
    · rintro ⟨⟨row, hrow, rfl⟩, hother⟩
      exact ⟨row, ⟨hrow, hother⟩, rfl⟩
  · exact absurd hremove (hbroken.remove_ne_ok id tree')

end Sheet

/-!
## Documents
-/

namespace Documents

/-- The login names under which there is something in the directory are the ids. -/
def Lists (s : Documents) (tree : Tree) (ids : List String) : Prop :=
  ∀ id, isUserId id = true →
    (tree.find? (s.directory.child (nameOf id)).key ≠ none ↔ id ∈ ids)

variable {s : Documents} {tree tree' : Tree} {ids : List String} {now : Moment} {id : String}

theorem find?_put_document (tree : Tree) (id other : String) (entry : Entry) :
    (tree.put (s.directory.child (nameOf id)).key entry).find?
        (s.directory.child (nameOf other)).key =
      if other = id then some entry else tree.find? (s.directory.child (nameOf other)).key := by
  by_cases hother : other = id
  · rw [if_pos hother, hother]
    exact Tree.find?_put_self (isEntryKey_document s.directory id) entry
  · rw [if_neg hother]
    exact Tree.find?_put_of_ne (isEntryKey_document s.directory id) entry
      fun heq => hother (key_document_inj heq)

theorem Lists.insert (h : s.Lists tree ids) {record : Record}
    (hinsert : s.insert tree now id record = .ok tree') : s.Lists tree' (id :: ids) := by
  rcases insert_eq_ok hinsert with ⟨-, rfl⟩
  intro other hvalid
  rw [find?_put_document, List.mem_cons]
  by_cases hother : other = id
  · rw [if_pos hother]
    exact iff_of_true (Option.some_ne_none _) (Or.inl hother)
  · rw [if_neg hother, or_iff_right hother]
    exact h other hvalid

theorem Lists.update (h : s.Lists tree ids) {changes : Record}
    (hupdate : s.update tree now id changes = .ok tree') : s.Lists tree' ids := by
  rcases Steps.bind_eq_ok.mp hupdate with ⟨⟨path, old⟩, hloaded, -⟩
  rcases loadOr_eq_ok_iff.mp hloaded with ⟨hpath, hfile, hload⟩
  rcases isUserId_of_path? hpath with ⟨hid, rfl⟩
  rcases update_eq_ok (fetch_eq_ok_iff.mpr ⟨_, hpath, hfile, hload⟩) hupdate with ⟨-, rfl⟩
  intro other hvalid
  rw [find?_put_document]
  by_cases hother : other = id
  · have hthere : tree.find? (s.directory.child (nameOf id)).key ≠ none := by
      intro hnone
      rw [Tree.isFile_of_none hnone] at hfile
      cases hfile
    rw [if_pos hother, hother]
    exact iff_of_true (Option.some_ne_none _) ((h id hid).mp hthere)
  · rw [if_neg hother]
    exact h other hvalid

theorem Lists.remove (h : s.Lists tree ids) (hremove : s.remove tree id = .ok tree') :
    s.Lists tree' (ids.filter (· != id)) := by
  unfold Documents.remove at hremove
  split at hremove
  · cases hremove
  · rename_i path hpath
    rcases isUserId_of_path? hpath with ⟨-, rfl⟩
    split at hremove
    · rw [Tree.removeFile_eq_ok (Steps.mapError_eq_ok.mp hremove)]
      intro other hvalid
      rw [Tree.find?_erase (isEntryKey_document s.directory id), List.mem_filter, bne_iff_ne]
      by_cases hother : other = id
      · rw [if_pos (by rw [hother])]
        exact iff_of_false (fun hsome => hsome rfl) fun hmem => hmem.2 hother
      · rw [if_neg fun heq => hother (key_document_inj heq), and_iff_left hother]
        exact h other hvalid
    · cases hremove

end Documents

/-!
## A table
-/

namespace TableStore

/-- The table has the columns that the store found, and the records of a book for its rows.  Records
need not have all fields, but each has an id. -/
structure Keeps (s : TableStore) (tree : Tree) (columns : List Column) (b : Book) : Prop where
  opened : s.closed = false
  present : tree.removed.lookup s.serial = none
  table : s.table = tableName
  names : s.columns = b.fields
  known : ∀ field ∈ Record.readOnlyFields, field ∈ b.fields
  apart : ColumnName.Apart b.fields
  unique : ∀ column ∈ columns, column.name = Record.idField → column.unique = true
  ids : ∀ record ∈ b.records, Record.idField ∈ Entries.keys record
  rows : ∃ db t, tree.find? s.path.key = some (.database s.serial db) ∧
    db.table? s.table = some t ∧ t.columns = columns ∧ t.Holds b

/-- The rows of the table have the ids. -/
def Lists (s : TableStore) (tree : Tree) (columns : List Column) (ids : List String) : Prop :=
  ∃ b : Book, s.Keeps tree columns b ∧ ∀ id, (b.find? id).isSome = true ↔ id ∈ ids

variable {s : TableStore} {tree tree' : Tree} {columns : List Column} {b : Book}
  {ids : List String} {now : Moment} {id : String}

theorem Keeps.idField_mem (h : s.Keeps tree columns b) : Record.idField ∈ b.fields :=
  h.known Record.idField (by simp [Record.readOnlyFields])

theorem Keeps.put (h : s.Keeps tree columns b) (b' : Book) (hfields : b'.fields = b.fields)
    (hids : ∀ record ∈ b'.records, Record.idField ∈ Entries.keys record) {db : Database}
    {t : Table} (htable : db.table? s.table = some t) (ht : t.Holds b')
    (hcolumns : t.columns = columns) :
    s.Keeps (tree.put s.path.key (.database s.serial db)) columns b' where
  opened := h.opened
  present := h.present
  table := h.table
  names := h.names.trans hfields.symm
  known := hfields.symm ▸ h.known
  apart := hfields.symm ▸ h.apart
  unique := h.unique
  ids := hids
  rows := by
    rcases h.rows with ⟨old, -, hfind, -, -, -⟩
    have hkey := Tree.isEntryKey_of_find? hfind Entry.noConfusion
    exact ⟨db, t, Tree.find?_put_self hkey _, htable, hcolumns, ht⟩

theorem change_eq {α : Type} {db : Database} (hopened : s.closed = false)
    (hlive : s.access tree = .live s.serial db) (ask : Database → Except QueryFault (α × Database))
    (refusal : QueryFault → Refusal) :
    s.change tree ask refusal =
      ((ask db).map fun found => (found.1, tree.put s.path.key (.database s.serial found.2))).mapError
        fun fault => .refused (refusal fault) := by
  rw [change, hopened, hlive, if_neg Bool.false_ne_true]
  dsimp only
  cases ask db with
  | error fault => rfl
  | ok found => rfl

theorem Keeps.insert_eq (h : s.Keeps tree columns b) {db : Database}
    (hfind : tree.find? s.path.key = some (.database s.serial db)) {record : Record}
    (hnew : RecordStore.checkNew id record = .ok ()) :
    s.insert tree now id record =
      ((db.insert s.table (record.stampNew b.fields now id)).map fun db' =>
        tree.put s.path.key (.database s.serial db')).mapError fun fault =>
          .refused (insertRefusal id fault) := by
  rw [TableStore.insert, hnew, h.names]
  simp only [bind, Except.bind]
  rw [change_eq h.opened (access_of_find? h.present hfind)]
  cases db.insert s.table (record.stampNew b.fields now id) with
  | error fault => rfl
  | ok db' => rfl

theorem Keeps.insert (h : s.Keeps tree columns b) {record : Record}
    (hinsert : s.insert tree now id record = .ok tree') :
    s.Keeps tree' columns (b.add (record.stampNew b.fields now id)) := by
  rcases Steps.bind_eq_ok.mp hinsert with ⟨⟨⟩, hnew, -⟩
  rcases h.rows with ⟨db, t, hfind, htable, hcolumns, ht⟩
  rw [h.insert_eq hfind hnew] at hinsert
  rcases Steps.map_eq_ok.mp (Steps.mapError_eq_ok.mp hinsert) with ⟨db', hdb, rfl⟩
  rw [Database.insert_stampNew htable ht h.apart h.known (hcolumns.symm ▸ h.unique) h.ids] at hdb
  rcases Steps.bind_eq_ok.mp hdb with ⟨⟨⟩, -, hdb⟩
  split at hdb
  · cases hdb
  · split at hdb
    · cases hdb
    · cases hdb
      refine h.put (b.add _) rfl ?_ ?_ (ht.add _) hcolumns
      · refine List.forall_mem_append.mpr ⟨h.ids, List.forall_mem_singleton.mpr ?_⟩
        exact Record.mem_keys_stampNew.mpr (Or.inl (by simp [Record.readOnlyFields]))
      · rw [Database.table?_update, htable]
        rfl

theorem Keeps.update (h : s.Keeps tree columns b) {changes : Record}
    (hupdate : s.update tree now id changes = .ok tree') :
    s.Keeps tree' columns (b.change id (changes.stampChanges b.fields now)) := by
  rcases h.rows with ⟨db, t, hfind, htable, hcolumns, ht⟩
  have hchanges : ∀ key ∈ Entries.keys (changes.stampChanges b.fields now), key ∈ b.fields := by
    intro key hkey
    rcases Record.mem_keys_stampChanges hkey with rfl | ⟨hfields, -⟩
    · exact h.known Record.modifiedField (by simp [Record.readOnlyFields])
    · exact hfields
  rw [TableStore.update, h.names, change_eq h.opened (access_of_find? h.present hfind),
    Database.updateById_eq htable ht h.apart h.idField_mem id hchanges] at hupdate
  rcases Steps.bind_eq_ok.mp hupdate with ⟨⟨count, next⟩, hchange, hupdate⟩
  rcases Steps.map_eq_ok.mp (Steps.mapError_eq_ok.mp hchange) with ⟨found, hfound, hnext⟩
  rcases Steps.map_eq_ok.mp hfound with ⟨⟨⟩, -, rfl⟩
  cases hnext
  dsimp only at hupdate
  split at hupdate
  · cases hupdate
  · cases hupdate
    refine h.put (b.change id _) rfl ?_ ?_
      (ht.change h.apart h.idField_mem h.ids id hchanges) hcolumns
    · intro other hother
      rcases List.mem_map.mp hother with ⟨record, hrecord, rfl⟩
      have hid := Entries.mem_keys_iff_isSome.mp (h.ids record hrecord)
      rw [Book.changed]
      split
      · rw [Entries.mem_keys_iff_isSome, Entries.lookup_setAll, Option.isSome_or, hid, Bool.or_true]
      · exact h.ids record hrecord
    · rw [Database.table?_update, htable]
      rfl

theorem Keeps.remove (h : s.Keeps tree columns b) (hremove : s.remove tree id = .ok tree') :
    s.Keeps tree' columns (b.drop id) := by
  rcases h.rows with ⟨db, t, hfind, htable, hcolumns, ht⟩
  rw [TableStore.remove, change_eq h.opened (access_of_find? h.present hfind),
    Database.deleteById_eq htable ht h.apart h.idField_mem id] at hremove
  simp only [bind, Except.bind, Except.map, Except.mapError] at hremove
  split at hremove
  · cases hremove
  · cases hremove
    refine h.put (b.drop id) rfl ?_ ?_ (ht.drop h.apart h.idField_mem h.ids id) hcolumns
    · exact fun record hrecord => h.ids record (List.mem_of_mem_filter hrecord)
    · rw [Database.table?_update, htable]
      rfl

theorem Lists.insert (h : s.Lists tree columns ids) {record : Record}
    (hinsert : s.insert tree now id record = .ok tree') : s.Lists tree' columns (id :: ids) := by
  rcases h with ⟨b, h, hids⟩
  refine ⟨_, h.insert hinsert, fun other => ?_⟩
  rw [Book.isSome_find?_add, Record.id_stampNew, Bool.or_eq_true, hids, beq_iff_eq, List.mem_cons,
    or_comm, eq_comm]

theorem Lists.update (h : s.Lists tree columns ids) {changes : Record}
    (hupdate : s.update tree now id changes = .ok tree') : s.Lists tree' columns ids := by
  rcases h with ⟨b, h, hids⟩
  refine ⟨_, h.update hupdate, fun other => ?_⟩
  rw [Book.isSome_find?_change, hids]

theorem Lists.remove (h : s.Lists tree columns ids) (hremove : s.remove tree id = .ok tree') :
    s.Lists tree' columns (ids.filter (· != id)) := by
  rcases h with ⟨b, h, hids⟩
  refine ⟨_, h.remove hremove, fun other => ?_⟩
  rw [Book.find?_drop, List.mem_filter, ← hids, bne_iff_ne]
  by_cases hother : other = id
  · rw [if_pos hother]
    exact iff_of_false Bool.false_ne_true fun hmem => hmem.2 hother
  · rw [if_neg hother, and_iff_left hother]

end TableStore

/-!
## New storage
-/

namespace TableStore

end TableStore

/-!
## Any store
-/

/-- The store has records with the ids. -/
def Store.Lists (columns : List Column) : Store → Tree → List String → Prop
  | .sheet s => s.Lists
  | .documents s => s.Lists
  | .table s => fun tree => s.Lists tree columns

namespace Mounted

/-- The store has records with the ids. -/
def Lists (columns : List Column) (m : Mounted Store) (ids : List String) : Prop :=
  m.store.Lists columns m.tree ids

variable {backend : Backend} {schema : Schema} {m : Mounted Store} {columns : List Column}

end Mounted

/-!
## What is said of known ids
-/

theorem Text.getLast?_append {c : Char} {text : String} (h : text.toList.getLast? = some c)
    (front : String) : (front ++ text).toList.getLast? = some c := by
  rw [String.toList_append, List.getLast?_append, h]
  rfl

namespace Refusal

end Refusal

namespace Mounted

end Mounted
end Roster
