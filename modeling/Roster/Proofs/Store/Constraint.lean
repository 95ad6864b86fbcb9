import Roster.Proofs.Filter.Pattern
import Roster.Proofs.Store.Columns

/-!
# What a table asks of a record

A record need not have all fields.  Before a table looks for its id among the rows, it asks for a
value in every column that must have one, and a statement asks before that for names that hold no
parameter.  The answer to a record that lacks a value names the column.
-/

namespace Roster

/-!
## Records with some of the fields
-/

theorem Record.mem_keys_stampNew {fields : List String} {now : Moment} {id name : String}
    {record : Record} :
    name ∈ Entries.keys (record.stampNew fields now id) ↔
      name ∈ readOnlyFields ∨ name ∈ fields ∧ name ∈ Entries.keys record := by
  have hread : name ∈ readOnlyFields ↔
      name = idField ∨ name = createdField ∨ name = modifiedField := by
    simp [readOnlyFields]
  rw [Entries.mem_keys_iff_isSome, Entries.mem_keys_iff_isSome, lookup_stampNew, hread]
  split_ifs with hid hmodified hcreated hfields
  · exact iff_of_true rfl (Or.inl (Or.inl hid))
  · exact iff_of_true rfl (Or.inl (Or.inr (Or.inr hmodified)))
  · exact iff_of_true rfl (Or.inl (Or.inr (Or.inl hcreated)))
  · tauto
  · exact iff_of_false Bool.false_ne_true (by tauto)

/-- The first column that must have a value, for which a caller has to give it and does not. -/
def Database.lacking? (columns : List Column) (record : Record) : Option String :=
  (columns.find? fun column => column.required && !Record.readOnlyFields.contains column.name &&
    (record.lookup column.name).isNone).map Column.name

namespace Database

variable {db : Database} {name id : String} {t : Table} {b : Book} {record : Record} {now : Moment}

theorem missingColumn?_stampNew {fields : List String} (hnames : t.columnNames = fields) :
    missingColumn? t (Table.rowOf fields (record.stampNew fields now id)) =
      lacking? t.columns record := by
  have hsame : ∀ column ∈ t.columns,
      (column.required && ((record.stampNew fields now id).lookup column.name).isNone) =
        (column.required && !Record.readOnlyFields.contains column.name &&
          (record.lookup column.name).isNone) := by
    intro column hcolumn
    have hfield : column.name ∈ fields := by
      rw [← hnames]
      exact List.mem_map_of_mem hcolumn
    rw [Bool.and_assoc]
    refine congrArg (column.required && ·) ?_
    rw [Bool.eq_iff_iff, Bool.and_eq_true, Bool.not_eq_true', Option.isNone_iff_eq_none,
      Option.isNone_iff_eq_none, Entries.lookup_eq_none_iff, Entries.lookup_eq_none_iff,
      Record.mem_keys_stampNew, ← Bool.not_eq_true, List.contains_iff_mem]
    tauto
  rw [missingColumn?, zip_rowOf hnames, List.find?_map, Option.map_map, lacking?]
  exact congrArg (Option.map Column.name) (List.find?_congr hsame)

theorem any_rows_iff (ht : t.Holds b)
    (hids : ∀ other ∈ b.records, Record.idField ∈ Entries.keys other) {i : Nat}
    (hi : b.fields[i]? = some Record.idField) :
    (t.rows.any fun other => (other[i]?).join == some id) = (b.find? id).isSome := by
  rw [ht.rows, List.any_map, Book.find?, List.isSome_find?]
  refine Bool.eq_iff_iff.mpr ?_
  rw [List.any_eq_true, List.any_eq_true]
  refine exists_congr fun other => and_congr_right fun hother => ?_
  rw [Function.comp_apply, Table.rowOf, List.getElem?_map, hi, Option.map_some, Option.join_some,
    Record.lookup_idField_beq (hids other hother)]

/-- The columns with the values of a record for them, in their places. -/
def placedCells (columns : List Column) (record : Record) : List ((Column × Option String) × Nat) :=
  (columns.map fun column => (column, record.lookup column.name)).zipIdx

theorem exists_of_mem_placedCells {columns : List Column} {cell : (Column × Option String) × Nat}
    (h : cell ∈ placedCells columns record) :
    ∃ column, columns[cell.2]? = some column ∧ cell.1 = (column, record.lookup column.name) := by
  have hcell := List.mem_zipIdx_iff_getElem?.mp h
  rw [List.getElem?_map] at hcell
  rcases Option.map_eq_some_iff.mp hcell with ⟨column, hcolumn, hsame⟩
  exact ⟨column, hcolumn, hsame.symm⟩

theorem name_find?_placedCells {columns : List Column} {column : Column} (h : column ∈ columns) :
    ((placedCells columns record).find? fun cell => cell.1.1.name == column.name).map
      (·.1.1.name) = some column.name := by
  cases hfind : (placedCells columns record).find? fun cell => cell.1.1.name == column.name with
  | none =>
      rcases List.mem_iff_getElem?.mp h with ⟨i, hi⟩
      have hcell : ((column, record.lookup column.name), i) ∈ placedCells columns record := by
        rw [placedCells, List.mem_zipIdx_iff_getElem?, List.getElem?_map, hi]
        rfl
      exact absurd (beq_self_eq_true column.name) (List.find?_eq_none.mp hfind _ hcell)
  | some cell =>
      have hname := List.find?_some hfind
      rw [Option.map_some, eq_of_beq hname]

theorem repeats_stampNew (ht : t.Holds b)
    (hunique : ∀ column ∈ t.columns, column.name = Record.idField → column.unique = true)
    (hids : ∀ other ∈ b.records, Record.idField ∈ Entries.keys other)
    {cell : (Column × Option String) × Nat}
    (hcell : cell ∈ placedCells t.columns (record.stampNew b.fields now id)) :
    (cell.1.1.unique && cell.1.2.isSome &&
        t.rows.any fun other => (other[cell.2]?).join == cell.1.2) =
      (cell.1.1.name == Record.idField && (b.find? id).isSome) := by
  rcases exists_of_mem_placedCells hcell with ⟨column, hplace, hvalue⟩
  have hmem := List.mem_of_getElem? hplace
  rw [hvalue]
  by_cases hid : column.name = Record.idField
  · have hfield : b.fields[cell.2]? = some Record.idField := by
      rw [← ht.names, Table.columnNames, List.getElem?_map, hplace, Option.map_some, hid]
    rw [hunique column hmem hid, hid, Record.lookup_stampNew, if_pos rfl,
      any_rows_iff ht hids hfield, beq_self_eq_true]
    rfl
  · have hplain : column.unique = false := by
      rw [← Bool.not_eq_true]
      exact mt (ht.unique column hmem) hid
    rw [hplain, beq_false_of_ne hid]
    rfl

/-- Nothing but an id is repeated, and it is when some record has it. -/
theorem repeatedColumn?_stampNew (ht : t.Holds b) (hfield : Record.idField ∈ b.fields)
    (hunique : ∀ column ∈ t.columns, column.name = Record.idField → column.unique = true)
    (hids : ∀ other ∈ b.records, Record.idField ∈ Entries.keys other) :
    repeatedColumn? t (Table.rowOf b.fields (record.stampNew b.fields now id)) =
      if (b.find? id).isSome then some Record.idField else none := by
  rw [repeatedColumn?, zip_rowOf ht.names]
  change ((placedCells t.columns (record.stampNew b.fields now id)).find? _).map _ = _
  rw [List.find?_congr fun cell hcell => repeats_stampNew ht hunique hids hcell]
  cases (b.find? id).isSome with
  | false =>
      rw [if_neg Bool.false_ne_true, Option.map_eq_none_iff, List.find?_eq_none]
      intro cell _
      rw [Bool.and_false]
      exact Bool.false_ne_true
  | true =>
      simp only [Bool.and_true, if_true]
      rw [← ht.names, Table.columnNames] at hfield
      rcases List.mem_map.mp hfield with ⟨column, hcolumn, hid⟩
      rw [← hid]
      exact name_find?_placedCells hcolumn

/-- A statement for a new record asks for plain names first, then for the values that must be
there, and at last for an id that no record has. -/
theorem insert_stampNew (htable : db.table? name = some t) (ht : t.Holds b)
    (hapart : ColumnName.Apart b.fields) (hknown : ∀ field ∈ Record.readOnlyFields, field ∈ b.fields)
    (hunique : ∀ column ∈ t.columns, column.name = Record.idField → column.unique = true)
    (hids : ∀ other ∈ b.records, Record.idField ∈ Entries.keys other) :
    db.insert name (record.stampNew b.fields now id) = (do
      ColumnName.check (Entries.keys (record.stampNew b.fields now id))
      match lacking? t.columns record with
      | some column => .error (.missingValue name column)
      | none =>
          if (b.find? id).isSome then .error (.duplicateValue name Record.idField)
          else .ok (db.update name fun t => { t with
            rows := t.rows ++ [Table.rowOf b.fields (record.stampNew b.fields now id)] })) := by
  have hfield : Record.idField ∈ b.fields := hknown _ (by simp [Record.readOnlyFields])
  have hcells : ∀ key ∈ Entries.keys (record.stampNew b.fields now id), key ∈ b.fields := by
    intro key hkey
    rcases Record.mem_keys_stampNew.mp hkey with hread | ⟨hfields, -⟩
    · exact hknown key hread
    · exact hfields
  have hnames : ((record.stampNew b.fields now id).map Prod.fst).find?
      (fun column => (t.indexOf? column).isNone) = none :=
    find?_unknown_eq_none ht.names hapart hcells
  rw [Database.insert, table_of_table? htable]
  simp only [bind, Except.bind, hnames, rowOf_eq ht.names hapart hcells,
    missingColumn?_stampNew ht.names, repeatedColumn?_stampNew ht hfield hunique hids]
  refine congrArg _ (funext fun _ => ?_)
  cases lacking? t.columns record with
  | some column => rfl
  | none =>
      cases (b.find? id).isSome with
      | false => rfl
      | true => rfl

end Database

/-!
## What is said of a fault
-/

namespace TableStore

end TableStore
end Roster
