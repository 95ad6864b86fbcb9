import Roster.Proofs.Storage.Tree
import Roster.Proofs.Store.Table
import Roster.Store.TableStore

/-!
# A book in a table of a database

The store reaches the database that was under its path when it was opened.  As long as that is
there, its requests are statements on the table.
-/

namespace Roster
namespace TableStore

/-- The table holds the records of a book. -/
structure Holds (s : TableStore) (tree : Tree) (b : Book) : Prop where
  opened : s.closed = false
  present : tree.removed.lookup s.serial = none
  columns : s.columns = b.fields
  distinct : ColumnName.Distinct b.fields
  table : ∃ db t, tree.find? s.path.key = some (.database s.serial db) ∧
    db.table? s.table = some t ∧ t.Holds b

variable {s : TableStore} {tree : Tree} {b : Book}

theorem access_of_find? {db : Database} (hpresent : tree.removed.lookup s.serial = none)
    (hfind : tree.find? s.path.key = some (.database s.serial db)) :
    s.access tree = .live s.serial db := by
  rw [access, hpresent]
  simp only
  rw [hfind]

theorem query_of_live {α : Type} {db : Database} (hopened : s.closed = false)
    (hlive : s.access tree = .live s.serial db) {ask : Database → Except QueryFault α} {a : α}
    (hask : ask db = .ok a) (refusal : QueryFault → Refusal) :
    s.query tree ask refusal = .ok a := by
  rw [query, hopened, hlive]
  simp [hask, Except.mapError]

theorem change_of_live {α : Type} {db db' : Database} (hopened : s.closed = false)
    (hlive : s.access tree = .live s.serial db)
    {ask : Database → Except QueryFault (α × Database)} {a : α}
    (hask : ask db = .ok (a, db')) (refusal : QueryFault → Refusal) :
    s.change tree ask refusal = .ok (a, tree.put s.path.key (.database s.serial db')) := by
  rw [change, hopened, hlive]
  simp [hask, Except.mapError, bind, Except.bind]

theorem Holds.put (h : s.Holds tree b) (b' : Book) (hfields : b'.fields = b.fields)
    {db : Database} {t : Table} (htable : db.table? s.table = some t) (ht : t.Holds b') :
    s.Holds (tree.put s.path.key (.database s.serial db)) b' where
  opened := h.opened
  present := h.present
  columns := h.columns.trans hfields.symm
  distinct := hfields.symm ▸ h.distinct
  table := by
    rcases h.table with ⟨old, -, hfind, -, -⟩
    have hkey := Tree.isEntryKey_of_find? hfind fun heq => nomatch heq
    exact ⟨db, t, Tree.find?_put_self hkey _, htable, ht⟩

theorem Holds.fetch (h : s.Holds tree b) (hsound : b.Sound) (id : String) :
    s.fetch tree id = RecordStore.fetch b id := by
  rcases h.table with ⟨db, t, hfind, htable, ht⟩
  have hlive := access_of_find? h.present hfind
  have hselect := Database.selectById_spec htable ht h.distinct hsound id
  rw [TableStore.fetch, query_of_live h.opened hlive hselect]
  simp only [bind, Except.bind, RecordStore.fetch]
  cases hrecord : b.find? id with
  | none => rfl
  | some record =>
      have hmem := ((Book.find?_eq_some_iff hsound.ids_nodup).mp hrecord).1
      simp only [Option.elim]
      rw [Entries.setAll_nil_of_nodup (hsound.keys_nodup hmem)]

theorem Holds.insert (h : s.Holds tree b) (hsound : b.Sound) {b' : Book} {now : Moment}
    {id : String} {record : Record} (hfull : Entries.keys record = b.fields)
    (hinsert : RecordStore.insert b now id record = .ok b') :
    ∃ tree', s.insert tree now id record = .ok tree' ∧ s.Holds tree' b' := by
  rcases Book.insert_eq_ok hinsert with ⟨hnew, hfree, rfl⟩
  rcases h.table with ⟨db, t, hfind, htable, ht⟩
  have hlive := access_of_find? h.present hfind
  have hstamped := Record.keys_stampNew now id hsound.known hfull
  rw [← Record.id_stampNew b.fields now id record] at hfree
  rcases Database.insert_spec htable ht h.distinct hsound hstamped hfree with
    ⟨db', hdb, t', htable', ht'⟩
  have hask : (fun db : Database => (db.insert s.table (record.stampNew b.fields now id)).map
      fun db => ((), db)) db = .ok ((), db') := by
    simp only [hdb, Except.map]
  refine ⟨_, ?_, h.put (b.add (record.stampNew b.fields now id)) rfl htable' ht'⟩
  rw [TableStore.insert, hnew, h.columns]
  simp only [bind, Except.bind]
  rw [change_of_live h.opened hlive hask]

theorem Holds.update (h : s.Holds tree b) (hsound : b.Sound) {b' : Book} {now : Moment}
    {id : String} {changes : Record} (hupdate : RecordStore.update b now id changes = .ok b') :
    ∃ tree', s.update tree now id changes = .ok tree' ∧ s.Holds tree' b' := by
  rcases Book.update_eq_ok hupdate with ⟨hfound, rfl⟩
  rcases h.table with ⟨db, t, hfind, htable, ht⟩
  have hlive := access_of_find? h.present hfind
  have hcells : ∀ key ∈ Entries.keys (changes.stampChanges b.fields now), key ∈ b.fields := by
    intro key hkey
    rcases Record.mem_keys_stampChanges hkey with rfl | ⟨hknown, -⟩
    · exact hsound.known Record.modifiedField (by simp [Record.readOnlyFields])
    · exact hknown
  rcases Database.updateById_spec htable ht h.distinct hsound hcells hfound with
    ⟨count, db', hdb, hcount, t', htable', ht'⟩
  refine ⟨_, ?_, h.put (b.change id (changes.stampChanges b.fields now)) rfl htable' ht'⟩
  rw [TableStore.update, h.columns]
  simp only [bind, Except.bind]
  rw [change_of_live h.opened hlive hdb]
  simp only [hcount]
  rfl

theorem Holds.remove (h : s.Holds tree b) (hsound : b.Sound) {b' : Book} {id : String}
    (hremove : RecordStore.remove b id = .ok b') :
    ∃ tree', s.remove tree id = .ok tree' ∧ s.Holds tree' b' := by
  rcases Book.remove_eq_ok hremove with ⟨hfound, rfl⟩
  rcases h.table with ⟨db, t, hfind, htable, ht⟩
  have hlive := access_of_find? h.present hfind
  rcases Database.deleteById_spec htable ht h.distinct hsound hfound with
    ⟨count, db', hdb, hcount, t', htable', ht'⟩
  refine ⟨_, ?_, h.put (b.drop id) rfl htable' ht'⟩
  rw [TableStore.remove, change_of_live h.opened hlive hdb]
  simp only [bind, Except.bind, hcount]
  rfl

theorem Holds.list (h : s.Holds tree b) (hsound : b.Sound) {filter : Filter}
    (hover : filter.IsOver b.fields) (hfits : filter.Fits) :
    s.list tree filter = RecordStore.list b filter := by
  rcases h.table with ⟨db, t, hfind, htable, ht⟩
  have hlive := access_of_find? h.present hfind
  have hselect := Database.selectWhere_spec htable ht h.distinct hsound hover hfits
  have hrecords : (Record.sortById (b.records.filter filter.selects)).map (Entries.setAll []) =
      Record.sortById (b.records.filter filter.selects) := by
    refine (List.map_congr_left fun record hrecord => ?_).trans (List.map_id _)
    have hmem := List.mem_of_mem_filter (List.mem_mergeSort.mp hrecord)
    exact Entries.setAll_nil_of_nodup (hsound.keys_nodup hmem)
  rw [TableStore.list, query_of_live h.opened hlive hselect]
  simp only [bind, Except.bind, hrecords]
  rfl

end TableStore
end Roster
