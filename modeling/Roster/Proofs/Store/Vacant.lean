import Roster.Proofs.Store.Preparation
import Roster.Proofs.Store.Readable

/-!
# Stores without records

A store that was opened on storage that was just prepared has no records, and it lists none.  What
makes a store vacant is seen at the places where it keeps records.
-/

namespace Roster

theorem Record.sortById_nil : sortById [] = [] :=
  List.mergeSort_nil

namespace Sheet

variable {s : Sheet} {t : Tree} {fields : List String}

/-- The file has nothing below its header. -/
def IsVacant (s : Sheet) (t : Tree) (fields : List String) : Prop :=
  t.find? s.path.key = some (.file (SheetContent.text s.format ⟨fields, []⟩).toUTF8)

theorem IsVacant.list (h : s.IsVacant t fields) (hnodup : fields.Nodup)
    (hfits : Delimited.Fits fields) (filter : Filter) : s.list t filter = .ok [] := by
  have hread := read_of_find? h ⟨hnodup, List.forall_mem_nil _, List.forall_mem_nil _⟩ hfits
    (List.forall_mem_nil _)
  have hreadOr : s.readOr t .cannotReadFile = .ok ⟨fields, []⟩ := by
    rw [readOr, hread]
    rfl
  rw [Sheet.list, hreadOr]
  simp only [bind, Except.bind, List.filter_nil, Record.sortById_nil]

theorem IsVacant.unreadable (h : s.IsVacant t fields) (hlong : ¬Delimited.Fits fields) :
    s.Unreadable t :=
  unreadable_of_long h fun hfits => hlong (hfits fields List.mem_cons_self)

end Sheet

namespace Documents

variable {s : Documents} {t : Tree}

def IsVacant (s : Documents) (t : Tree) : Prop :=
  ∀ name, isDocumentName name = true → t.find? (s.directory.key ++ [name]) = none

theorem IsVacant.list (h : s.IsVacant t) (filter : Filter) : s.list t filter = .ok [] := by
  have hnames : documentNames s.directory t = [] := by
    refine List.eq_nil_iff_forall_not_mem.mpr fun name hname => ?_
    rcases mem_documentNames_iff.mp hname with ⟨hdocument, hfind⟩
    rw [Path.key_child (name_of_isDocumentName hdocument).1] at hfind
    exact hfind (h name hdocument)
  rw [Documents.list, hnames]
  simp only [bind, Except.bind, readable, List.filter_nil, Record.sortById_nil]

end Documents

namespace TableStore

variable {s : TableStore} {t : Tree}

/-- The table has no rows, but a column for ids. -/
structure IsVacant (s : TableStore) (t : Tree) : Prop where
  opened : s.closed = false
  present : t.removed.lookup s.serial = none
  table : ∃ db table, t.find? s.path.key = some (.database s.serial db) ∧
    db.table? s.table = some table ∧ table.rows = [] ∧
    (table.indexOf? Database.idColumn).isSome = true

theorem IsVacant.list (h : s.IsVacant t) : s.list t .all = .ok [] := by
  rcases h.table with ⟨db, table, hfind, htable, hrows, hid⟩
  have hlive := access_of_find? h.present hfind
  have hselect : db.selectWhere s.table (.ofGroups Filter.all.groups) = .ok [] := by
    rw [Database.selectWhere, Database.table_of_table? htable]
    simp only [bind, Except.bind, Database.requireColumn, hid, if_true, hrows, List.mergeSort_nil]
    rfl
  rw [TableStore.list, query_of_live h.opened hlive hselect]
  rfl

end TableStore

namespace Store

def IsVacant (t : Tree) (fields : List String) : Store → Prop
  | .sheet s => s.IsVacant t fields
  | .documents s => s.IsVacant t
  | .table s => s.IsVacant t

/-- A vacant store lists no records, if its file can be read at all. -/
theorem IsVacant.list_iff {store : Store} {t : Tree} {fields : List String}
    (h : store.IsVacant t fields) (hnodup : fields.Nodup) :
    store.list t .all = .ok [] ↔ (store.backend = .file → Delimited.Fits fields) := by
  cases store with
  | sheet s =>
      refine ⟨fun hlist _ => ?_, fun hfits => Sheet.IsVacant.list h hnodup (hfits rfl) .all⟩
      by_contra hlong
      exact (Sheet.IsVacant.unreadable h hlong).list_ne_ok .all [] hlist
  | documents s => exact iff_of_true (Documents.IsVacant.list h .all) fun hfile => nomatch hfile
  | table s => exact iff_of_true (TableStore.IsVacant.list h) fun hfile => nomatch hfile

end Store

/-- What is opened on storage that was just prepared is vacant. -/
theorem Backend.isVacant_of_attach {backend : Backend} {text : String} {schema : Schema}
    {options : Entries} {now : Moment} {tree tree' : Tree} {prepared : Prepared} {store : Store}
    (hschema : schema.Sound) (hsound : tree.IsSound)
    (hdirectory : tree.isDirectory (.ofText text) = true)
    (h : (backend.prepare (.ofText text) schema options now).run tree = (.ok prepared, tree'))
    (hattach : Store.attach backend prepared.state tree' = .ok store) :
    store.IsVacant tree' schema.fields := by
  have hplain := Path.isPlain_ofText text
  cases backend with
  | file =>
      rcases Sheet.holds_of_prepare h with ⟨s, hplace, -, hstate, -, hfile⟩
      rcases Steps.map_eq_ok.mp hattach with ⟨opened, hopened, rfl⟩
      rw [hstate] at hopened
      rw [Sheet.eq_of_attach_state (hplace ▸ hplain) hopened]
      exact hfile
  | yaml =>
      rcases Documents.holds_of_prepare hsound hdirectory (Preparation.run_ofChange_eq_ok.mp h) with
        ⟨hstate, hholds⟩
      rw [Store.attach, hstate, Documents.attach_stateIn hplain hschema.ne_nil hholds] at hattach
      cases hattach
      intro name hname
      by_contra hfind
      have hmem := List.mem_filter.mpr
        ⟨(Tree.mem_names_iff (Documents.name_of_isDocumentName hname).2).mpr hfind, hname⟩
      exact List.not_mem_nil (hholds.names.subset hmem)
  | database =>
      rcases TableStore.attach_of_prepare hplain hsound h with
        ⟨serial, columns, made, hcolumns, hopened, -, hfind, htable, hremoved⟩
      rw [Store.attach, hopened] at hattach
      cases hattach
      refine ⟨rfl, hremoved, made, _, hfind, htable, rfl, ?_⟩
      -- The rows are found by a column for ids, so an empty table must have one as well.
      rcases TableStore.mapM_column_eq_ok (Steps.mapError_eq_ok.mp hcolumns) with ⟨hnames, -⟩
      have hid : Record.idField ∈ columns.map Column.name :=
        hnames ▸ hschema.core Record.idField (by decide)
      rcases List.mem_map.mp hid with ⟨column, hcolumn, hname⟩
      rw [Table.indexOf?, List.findIdx?_isSome, List.any_eq_true]
      refine ⟨_, List.mem_map_of_mem hcolumn, ?_⟩
      have hmeant : String.ofList (ColumnName.unshield Record.idField.toList) = Record.idField := by
        rw [ColumnName.unshield_of_not_mem (by decide), String.ofList_toList]
      rw [hname, hmeant]
      exact sameName_iff.mpr rfl

end Roster
