import Roster.Proofs.Storage.Query
import Roster.Proofs.Store.Book

/-!
# A book in a table

The rows of the table are the records of the book, column by column.  A statement on the rows is the
request on the records.
-/

namespace Roster

/-!
## The rows of a book
-/

/-- The rows of the table are the records of a book. -/
structure Table.Holds (t : Table) (b : Book) : Prop where
  names : t.columnNames = b.fields
  unique : ∀ column ∈ t.columns, column.unique = true → column.name = Record.idField
  rows : t.rows = b.records.map (Table.rowOf b.fields)

namespace Table.Holds

variable {t : Table} {b : Book}

theorem add (h : t.Holds b) (record : Record) :
    Holds { t with rows := t.rows ++ [rowOf b.fields record] } (b.add record) where
  names := h.names
  unique := h.unique
  rows := by
    rw [h.rows, Book.add, List.map_append, List.map_singleton]

theorem change (h : t.Holds b) (hapart : ColumnName.Apart b.fields)
    (hfield : Record.idField ∈ b.fields)
    (hids : ∀ record ∈ b.records, Record.idField ∈ Entries.keys record) (id : String)
    {changes : Record} (hchanges : ∀ key ∈ Entries.keys changes, key ∈ b.fields) :
    Holds { t with rows := t.rows.map fun row =>
      if Database.hasId t id row then Database.changeRow t changes row else row }
      (b.change id changes) where
  names := h.names
  unique := h.unique
  rows := by
    dsimp only
    rw [h.rows, Book.change, List.map_map, List.map_map]
    refine List.map_congr_left fun record hrecord => ?_
    simp only [Function.comp_apply]
    rw [Database.hasId_rowOf h.names hapart hfield (hids record hrecord), Book.changed]
    split
    · exact Database.changeRow_rowOf h.names hapart hchanges record
    · rfl

theorem drop (h : t.Holds b) (hapart : ColumnName.Apart b.fields)
    (hfield : Record.idField ∈ b.fields)
    (hids : ∀ record ∈ b.records, Record.idField ∈ Entries.keys record) (id : String) :
    Holds { t with rows := t.rows.filter (!Database.hasId t id ·) } (b.drop id) where
  names := h.names
  unique := h.unique
  rows := by
    dsimp only
    rw [h.rows, Book.drop, List.filter_map]
    congr 1
    refine List.filter_congr fun record hrecord => ?_
    rw [Function.comp_apply, Database.hasId_rowOf h.names hapart hfield (hids record hrecord)]
    rfl

end Table.Holds

namespace Database

variable {db : Database} {name : String} {t : Table} {b : Book}

theorem zip_rowOf {fields : List String} (hnames : t.columnNames = fields) (record : Record) :
    t.columns.zip (Table.rowOf fields record) =
      t.columns.map fun column => (column, record.lookup column.name) := by
  rw [Table.rowOf, ← hnames, Table.columnNames, List.map_map, List.map_prod_left_eq_zip]
  rfl

theorem missingColumn?_eq_none (ht : t.Holds b) {record : Record}
    (hfull : Entries.keys record = b.fields) :
    missingColumn? t (Table.rowOf b.fields record) = none := by
  rw [missingColumn?, zip_rowOf ht.names, Option.map_eq_none_iff, List.find?_eq_none]
  intro cell hcell
  rcases List.mem_map.mp hcell with ⟨column, hcolumn, rfl⟩
  have hkey : column.name ∈ Entries.keys record := by
    rw [hfull, ← ht.names]
    exact List.mem_map_of_mem hcolumn
  rw [Record.lookup_valueOf hkey]
  simp

/-- Only ids must be different, and the id of a new user is. -/
theorem repeatedColumn?_eq_none (ht : t.Holds b) (hsound : b.Sound) {record : Record}
    (hfull : Entries.keys record = b.fields) (hfree : b.find? record.id = none) :
    repeatedColumn? t (Table.rowOf b.fields record) = none := by
  rw [repeatedColumn?, zip_rowOf ht.names, Option.map_eq_none_iff, List.find?_eq_none]
  rintro ⟨cell, i⟩ hcell
  rcases List.mem_zipIdx' hcell with ⟨hlt, hcolumn⟩
  rw [List.length_map] at hlt
  rw [List.getElem_map] at hcolumn
  rw [hcolumn]
  simp only
  rw [Bool.and_eq_true, Bool.and_eq_true, not_and]
  rintro ⟨hunique, -⟩ hany
  have hidColumn := ht.unique t.columns[i] (List.getElem_mem hlt) hunique
  rw [List.any_eq_true] at hany
  rcases hany with ⟨row, hrow, hvalue⟩
  rw [ht.rows] at hrow
  rcases List.mem_map.mp hrow with ⟨other, hother, rfl⟩
  have hfield : b.fields[i]? = some Record.idField := by
    rw [← ht.names, Table.columnNames, List.getElem?_map, List.getElem?_eq_getElem hlt,
      Option.map_some, hidColumn]
  have hid : Record.idField ∈ Entries.keys record := hfull.symm ▸ hsound.idField_mem
  rw [hidColumn, Table.rowOf, List.getElem?_map, hfield, Option.map_some, Option.join_some,
    Record.lookup_valueOf hid, Record.lookup_idField_beq (hsound.idField_mem_keys hother),
    beq_iff_eq] at hvalue
  exact Book.find?_eq_none_iff.mp hfree other hother hvalue

theorem insert_spec (htable : db.table? name = some t) (ht : t.Holds b)
    (hdistinct : ColumnName.Distinct b.fields) (hsound : b.Sound) {record : Record}
    (hfull : Entries.keys record = b.fields) (hfree : b.find? record.id = none) :
    ∃ db', db.insert name record = .ok db' ∧ ∃ t', db'.table? name = some t' ∧
      t'.Holds (b.add record) := by
  have hcells : ∀ key ∈ record.map Prod.fst, key ∈ b.fields := fun key hkey => hfull ▸ hkey
  refine ⟨db.update name fun t => { t with rows := t.rows ++ [Table.rowOf b.fields record] }, ?_,
    { t with rows := t.rows ++ [Table.rowOf b.fields record] }, ?_, ?_⟩
  · rw [Database.insert, hdistinct.check hcells, table_of_table? htable]
    simp only [bind, Except.bind]
    rw [find?_unknown_eq_none ht.names hdistinct.apart hcells]
    simp only [rowOf_eq ht.names hdistinct.apart hcells, missingColumn?_eq_none ht hfull,
      repeatedColumn?_eq_none ht hsound hfull hfree]
  · rw [table?_update, htable]
    rfl
  · exact ht.add record

theorem hasId_of_mem (ht : t.Holds b) (hdistinct : ColumnName.Distinct b.fields)
    (hsound : b.Sound) {record : Record} (hrecord : record ∈ b.records) (id : String) :
    hasId t id (Table.rowOf b.fields record) = (record.id == id) :=
  hasId_rowOf ht.names hdistinct.apart hsound.idField_mem (hsound.idField_mem_keys hrecord) id

theorem selectById_spec (htable : db.table? name = some t) (ht : t.Holds b)
    (hdistinct : ColumnName.Distinct b.fields) (hsound : b.Sound) (id : String) :
    db.selectById name id = .ok (b.find? id) := by
  have hrequire := requireColumn_of_mem ht.names hdistinct.apart hsound.idField_mem
  have hfind : (b.records.find? (hasId t id ∘ Table.rowOf b.fields)) = b.find? id :=
    List.find?_congr fun record hrecord => hasId_of_mem ht hdistinct hsound hrecord id
  rw [selectById, table_of_table? htable]
  simp only [bind, Except.bind]
  rw [show idColumn = Record.idField from rfl, hrequire]
  simp only
  rw [ht.rows, List.find?_map, hfind]
  cases hrecord : b.find? id with
  | none => rfl
  | some record =>
      have hmem := ((Book.find?_eq_some_iff hsound.ids_nodup).mp hrecord).1
      rw [Option.map_some, Option.map_some,
        Table.record_rowOf ht.names (hsound.full record hmem) hsound.fields_nodup]

theorem countP_hasId_ne_zero (ht : t.Holds b) (hdistinct : ColumnName.Distinct b.fields)
    (hsound : b.Sound) {id : String} (hfound : (b.find? id).isSome = true) :
    (t.rows.countP (hasId t id) == 0) = false := by
  rcases Option.isSome_iff_exists.mp hfound with ⟨record, hrecord⟩
  rcases (Book.find?_eq_some_iff hsound.ids_nodup).mp hrecord with ⟨hmem, rfl⟩
  have hpos : 0 < t.rows.countP (hasId t record.id) := by
    rw [List.countP_pos_iff]
    refine ⟨Table.rowOf b.fields record, ?_, ?_⟩
    · rw [ht.rows]
      exact List.mem_map_of_mem hmem
    · rw [hasId_of_mem ht hdistinct hsound hmem, beq_self_eq_true]
  rw [beq_eq_false_iff_ne]
  omega

/-- A change of known columns is carried out when no name holds a parameter. -/
theorem updateById_eq (htable : db.table? name = some t) (ht : t.Holds b)
    (hapart : ColumnName.Apart b.fields) (hfield : Record.idField ∈ b.fields) (id : String)
    {changes : Record} (hchanges : ∀ key ∈ Entries.keys changes, key ∈ b.fields) :
    db.updateById name id changes = (ColumnName.check (Entries.keys changes)).map fun _ =>
      (t.rows.countP (hasId t id), db.update name fun t => { t with
        rows := t.rows.map fun row => if hasId t id row then changeRow t changes row else row }) := by
  have hrequire := requireColumn_of_mem ht.names hapart hfield
  have hcells : ∀ key ∈ changes.map Prod.fst, key ∈ b.fields := hchanges
  rw [updateById, table_of_table? htable]
  simp only [bind, Except.bind]
  rw [find?_unknown_eq_none ht.names hapart hcells, show idColumn = Record.idField from rfl,
    hrequire]
  rfl

theorem updateById_spec (htable : db.table? name = some t) (ht : t.Holds b)
    (hdistinct : ColumnName.Distinct b.fields) (hsound : b.Sound) {id : String}
    {changes : Record} (hchanges : ∀ key ∈ Entries.keys changes, key ∈ b.fields)
    (hfound : (b.find? id).isSome = true) :
    ∃ count db', db.updateById name id changes = .ok (count, db') ∧ (count == 0) = false ∧
      ∃ t', db'.table? name = some t' ∧ t'.Holds (b.change id changes) := by
  have hupdate := updateById_eq htable ht hdistinct.apart hsound.idField_mem id hchanges
  rw [hdistinct.check hchanges] at hupdate
  refine ⟨_, _, hupdate, countP_hasId_ne_zero ht hdistinct hsound hfound, _, ?_,
    ht.change hdistinct.apart hsound.idField_mem (fun _ => hsound.idField_mem_keys) id hchanges⟩
  rw [table?_update, htable]
  rfl

theorem deleteById_eq (htable : db.table? name = some t) (ht : t.Holds b)
    (hapart : ColumnName.Apart b.fields) (hfield : Record.idField ∈ b.fields) (id : String) :
    db.deleteById name id = .ok (t.rows.countP (hasId t id), db.update name fun t => { t with
      rows := t.rows.filter (!hasId t id ·) }) := by
  rw [deleteById, table_of_table? htable]
  simp only [bind, Except.bind]
  rw [show idColumn = Record.idField from rfl, requireColumn_of_mem ht.names hapart hfield]

theorem deleteById_spec (htable : db.table? name = some t) (ht : t.Holds b)
    (hdistinct : ColumnName.Distinct b.fields) (hsound : b.Sound) {id : String}
    (hfound : (b.find? id).isSome = true) :
    ∃ count db', db.deleteById name id = .ok (count, db') ∧ (count == 0) = false ∧
      ∃ t', db'.table? name = some t' ∧ t'.Holds (b.drop id) := by
  refine ⟨_, _, deleteById_eq htable ht hdistinct.apart hsound.idField_mem id,
    countP_hasId_ne_zero ht hdistinct hsound hfound, _, ?_,
    ht.drop hdistinct.apart hsound.idField_mem (fun _ => hsound.idField_mem_keys) id⟩
  rw [table?_update, htable]
  rfl

theorem cellOf_rowOf (ht : t.Holds b) (hdistinct : ColumnName.Distinct b.fields) {field : String}
    (hfield : field ∈ b.fields) (record : Record) :
    cellOf t (Table.rowOf b.fields record) field = record.lookup field := by
  rcases Table.cell_rowOf ht.names hdistinct.apart hfield record with ⟨i, hi, hcell⟩
  unfold cellOf
  rw [hi]
  exact hcell

theorem idLe_rowOf (ht : t.Holds b) (hdistinct : ColumnName.Distinct b.fields)
    (hsound : b.Sound) {x y : Record} (hx : x ∈ b.records) (hy : y ∈ b.records) :
    decide (x.id ≤ y.id) = idLe (t.value (Table.rowOf b.fields x) idColumn)
      (t.value (Table.rowOf b.fields y) idColumn) := by
  rw [show idColumn = Record.idField from rfl,
    Table.value_rowOf ht.names hdistinct.apart hsound.idField_mem,
    Table.value_rowOf ht.names hdistinct.apart hsound.idField_mem,
    Record.lookup_valueOf (hsound.idField_mem_keys hx),
    Record.lookup_valueOf (hsound.idField_mem_keys hy)]
  rfl

theorem plan_ofGroups (ht : t.Holds b) (hdistinct : ColumnName.Distinct b.fields) {f : Filter}
    (hover : f.IsOver b.fields) :
    (∀ row, (plan t (.ofGroups f.groups)).1.selects row = true) ∧
      (∀ row, (plan t (.ofGroups f.groups)).2.selects row =
        (Clause.ofGroups f.groups).selects row) ∧
      ((Clause.ofGroups f.groups).Fits →
        (plan t (.ofGroups f.groups)).1.Fits ∧ (plan t (.ofGroups f.groups)).2.Fits) := by
  refine plan_spec (fun terms hterms => ?_) (fun terms hterms term hterm => ?_)
  · exact Clause.ne_nil_of_mem_groupsFrom hover.groups_ne hterms
  · rcases Clause.exists_condition_of_mem_ofGroups hterms hterm with
      ⟨group, hgroup, c, hc, hcolumn, -, -⟩
    rcases Table.indexOf?_of_mem ht.names hdistinct.apart (hover.known group hgroup c hc) with
      ⟨i, hi, -⟩
    rw [isFixed, hcolumn, hi]
    rfl

theorem selectWhere_spec (htable : db.table? name = some t) (ht : t.Holds b)
    (hdistinct : ColumnName.Distinct b.fields) (hsound : b.Sound) {f : Filter}
    (hover : f.IsOver b.fields) (hfits : f.Fits) :
    db.selectWhere name (.ofGroups f.groups) =
      .ok (Record.sortById (b.records.filter f.selects)) := by
  have hrequire := requireColumn_of_mem ht.names hdistinct.apart hsound.idField_mem
  rcases plan_ofGroups ht hdistinct hover with ⟨honce, heach, hplan⟩
  rcases hplan hfits.ofGroups with ⟨honceFits, heachFits⟩
  have hordered : (t.rows.mergeSort fun x y => idLe (t.value x idColumn) (t.value y idColumn)) =
      (Record.sortById b.records).map (Table.rowOf b.fields) := by
    rw [ht.rows, Record.sortById]
    symm
    refine List.map_mergeSort fun x hx y hy => ?_
    exact idLe_rowOf ht hdistinct hsound hx hy
  have hmem : ∀ record ∈ Record.sortById b.records, record ∈ b.records :=
    fun record hrecord => List.mem_mergeSort.mp hrecord
  -- Row by row the second part of the clause selects what the filter selects of the records.
  have hselects : ∀ record ∈ Record.sortById b.records,
      (((plan t (.ofGroups f.groups)).2.selects ∘ cellOf t) ∘ Table.rowOf b.fields) record =
        f.selects record := by
    intro record hrecord
    rw [Function.comp_apply, Function.comp_apply, heach]
    refine Filter.selects_ofGroups fun group hgroup c hc => ?_
    rw [cellOf_rowOf ht hdistinct (hover.known group hgroup c hc), Record.valueOf]
  have hselected : ((Record.sortById b.records).map (Table.rowOf b.fields)).filterM
      (fun row => select (plan t (.ofGroups f.groups)).2 (cellOf t row)) =
        .ok (((Record.sortById b.records).filter f.selects).map (Table.rowOf b.fields)) := by
    rw [Steps.filterM_eq_ok (p := (plan t (.ofGroups f.groups)).2.selects ∘ cellOf t)
      fun row _ => select_eq_ok heachFits (cellOf t row), List.filter_map,
      List.filter_congr hselects]
  have hshown : (((Record.sortById b.records).filter f.selects).map (Table.rowOf b.fields)).map
      t.record = (Record.sortById b.records).filter f.selects := by
    rw [List.map_map]
    refine (List.map_congr_left fun record hrecord => ?_).trans (List.map_id _)
    have hfull := hsound.full record (hmem record (List.mem_of_mem_filter hrecord))
    exact Table.record_rowOf ht.names hfull hsound.fields_nodup
  have hsorted : (Record.sortById b.records).filter f.selects =
      Record.sortById (b.records.filter f.selects) := by
    refine Record.eq_sortById ?_ ?_ ?_
    · exact hsound.ids_nodup.sublist (List.Sublist.map Record.id List.filter_sublist)
    · exact (Record.pairwise_sortById b.records).filter f.selects
    · exact (List.mergeSort_perm b.records _).filter f.selects
  rw [selectWhere, table_of_table? htable]
  simp only [bind, Except.bind]
  rw [show idColumn = Record.idField from rfl, hrequire]
  simp only
  rw [select_eq_ok honceFits, honce]
  simp only [if_true]
  rw [show Record.idField = idColumn from rfl, hordered, hselected]
  simp only
  rw [hshown, hsorted]

end Database
end Roster
