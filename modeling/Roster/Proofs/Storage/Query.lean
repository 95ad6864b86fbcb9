import Mathlib.Data.List.Find
import Roster.Proofs.Filter.Agreement
import Roster.Proofs.Filter.Reading
import Roster.Proofs.Steps
import Roster.Proofs.Store.Record
import Roster.Storage.Query

/-!
# Queries on a table of records

A table whose columns are the fields of records has one row for each of them.  Every statement on
such rows does to the records what its name says, as long as the names of the fields stay apart
when the case of ASCII letters is left out of account.
-/

namespace Roster

/-!
## Names
-/

/-- The names can be columns of one table. -/
def ColumnName.Apart (names : List String) : Prop :=
  (names.map Text.foldAscii).Nodup

/-- The names can be columns of one table, and none of them holds what is taken for a parameter. -/
structure ColumnName.Distinct (names : List String) : Prop where
  apart : Apart names
  plain : ∀ name ∈ names, ColumnName.parameter? name = none

theorem sameName_iff {a b : String} :
    sameName a b = true ↔ Text.foldAscii a = Text.foldAscii b := by
  rw [sameName, beq_iff_eq, Text.foldAscii, Text.foldAscii, String.ofList_inj]

namespace ColumnName

theorem Apart.sameName_eq {names : List String} (h : Apart names) {a b : String}
    (ha : a ∈ names) (hb : b ∈ names) : sameName a b = (a == b) := by
  rw [Bool.eq_iff_iff, sameName_iff, beq_iff_eq]
  constructor
  · exact fun hfold => List.inj_on_of_nodup_map h ha hb hfold
  · rintro rfl
    rfl

theorem Distinct.check {names cells : List String} (h : Distinct names)
    (hcells : ∀ name ∈ cells, name ∈ names) : ColumnName.check cells = .ok () := by
  have hnone : cells.findSome? parameter? = none := by
    rw [List.findSome?_eq_none_iff]
    exact fun name hname => h.plain name (hcells name hname)
  rw [ColumnName.check, hnone]

theorem Apart.find?_eq_lookup {names : List String} (h : Apart names)
    {cells : List (String × String)} (hcells : ∀ name ∈ Entries.keys cells, name ∈ names)
    {name : String} (hname : name ∈ names) :
    (cells.find? fun cell => sameName cell.1 name).map Prod.snd = cells.lookup name := by
  induction cells with
  | nil => rfl
  | cons cell rest ih =>
      rcases cell with ⟨key, value⟩
      have hkey : key ∈ names := hcells key (by simp [Entries.keys])
      have hrest := ih fun other hother => hcells other (List.mem_cons_of_mem _ hother)
      rw [List.find?_cons, h.sameName_eq hkey hname]
      by_cases heq : key = name
      · simp [heq]
      · have hleft : (key == name) = false := by simpa using heq
        have hright : (name == key) = false := by simpa using fun hsym => heq hsym.symm
        rw [hleft, List.lookup_cons, hright]
        exact hrest

end ColumnName

/-!
## Rows
-/

namespace Table

def rowOf (fields : List String) (record : Record) : Row :=
  fields.map fun field => record.lookup field

variable {t : Table} {fields : List String}

theorem indexOf?_of_mem (hnames : t.columnNames = fields) (hapart : ColumnName.Apart fields)
    {name : String} (hname : name ∈ fields) :
    ∃ i, t.indexOf? name = some i ∧ fields[i]? = some name := by
  have hfound : (t.columns.findIdx? (sameName name ·.name)).isSome = true := by
    rw [List.findIdx?_isSome, List.any_eq_true]
    rw [← hnames, columnNames] at hname
    rcases List.mem_map.mp hname with ⟨column, hcolumn, rfl⟩
    exact ⟨column, hcolumn, sameName_iff.mpr rfl⟩
  rcases Option.isSome_iff_exists.mp hfound with ⟨i, hi⟩
  rcases List.findIdx?_eq_some_iff_getElem.mp hi with ⟨hlt, hsame, -⟩
  have hcolumn : t.columns[i].name ∈ fields := by
    rw [← hnames]
    exact List.mem_map.mpr ⟨t.columns[i], List.getElem_mem hlt, rfl⟩
  rw [hapart.sameName_eq hname hcolumn, beq_iff_eq] at hsame
  refine ⟨i, hi, ?_⟩
  rw [← hnames, columnNames, List.getElem?_map, List.getElem?_eq_getElem hlt, Option.map_some,
    ← hsame]

theorem cell_rowOf (hnames : t.columnNames = fields) (hapart : ColumnName.Apart fields)
    {name : String} (hname : name ∈ fields) (record : Record) :
    ∃ i, t.indexOf? name = some i ∧ ((rowOf fields record)[i]?).join = record.lookup name := by
  rcases indexOf?_of_mem hnames hapart hname with ⟨i, hi, hfield⟩
  refine ⟨i, hi, ?_⟩
  rw [rowOf, List.getElem?_map, hfield, Option.map_some, Option.join_some]

theorem value_rowOf (hnames : t.columnNames = fields) (hapart : ColumnName.Apart fields)
    {name : String} (hname : name ∈ fields) (record : Record) :
    t.value (rowOf fields record) name = record.lookup name := by
  rcases cell_rowOf hnames hapart hname record with ⟨i, hi, hcell⟩
  rw [value, hi, Option.bind_some, hcell]

theorem record_rowOf (hnames : t.columnNames = fields) {record : Record}
    (hfull : Entries.keys record = fields) (hnodup : fields.Nodup) :
    t.record (rowOf fields record) = record := by
  rw [Table.record, hnames, rowOf, ← List.map_prod_left_eq_zip, List.map_map, ← hfull]
  exact Record.map_valueOf (hfull.symm ▸ hnodup)

end Table

namespace Database

theorem table?_update (db : Database) (name : String) (f : Table → Table) :
    (db.update name f).table? name = (db.table? name).map f := by
  rcases db with ⟨tables⟩
  rw [table?, table?, update]
  dsimp only
  induction tables with
  | nil => rfl
  | cons t rest ih =>
      rw [List.map_cons, List.find?_cons, List.find?_cons]
      cases hname : sameName t.1 name with
      | true => simp [hname]
      | false => simpa [hname] using ih

theorem table_of_table? {db : Database} {name : String} {t : Table}
    (h : db.table? name = some t) : db.table name = .ok t := by
  rw [table, h]
  rfl

variable {t : Table} {fields : List String}

theorem find?_unknown_eq_none (hnames : t.columnNames = fields)
    (hapart : ColumnName.Apart fields) {cells : List String}
    (hcells : ∀ name ∈ cells, name ∈ fields) :
    (cells.find? fun column => (t.indexOf? column).isNone) = none := by
  rw [List.find?_eq_none]
  intro name hname
  rcases Table.indexOf?_of_mem hnames hapart (hcells name hname) with ⟨i, hi, -⟩
  rw [hi]
  exact Bool.false_ne_true

theorem requireColumn_of_mem (hnames : t.columnNames = fields)
    (hapart : ColumnName.Apart fields) {name : String} (hname : name ∈ fields) :
    requireColumn t name = .ok () := by
  rcases Table.indexOf?_of_mem hnames hapart hname with ⟨i, hi, -⟩
  rw [requireColumn, hi]
  rfl

theorem rowOf_eq (hnames : t.columnNames = fields) (hapart : ColumnName.Apart fields)
    {record : Record} (hcells : ∀ name ∈ Entries.keys record, name ∈ fields) :
    rowOf t record = Table.rowOf fields record := by
  have hcell : ∀ name ∈ fields,
      (record.find? fun cell => sameName cell.1 name).map Prod.snd = record.lookup name :=
    fun name hname => hapart.find?_eq_lookup hcells hname
  have hcolumns : rowOf t record = t.columnNames.map fun name =>
      (record.find? fun cell => sameName cell.1 name).map Prod.snd := by
    rw [rowOf, Table.columnNames, List.map_map]
    rfl
  rw [hcolumns, hnames, Table.rowOf]
  exact List.map_congr_left hcell

theorem hasId_rowOf (hnames : t.columnNames = fields) (hapart : ColumnName.Apart fields)
    (hfield : Record.idField ∈ fields) {record : Record}
    (hid : Record.idField ∈ Entries.keys record) (id : String) :
    hasId t id (Table.rowOf fields record) = (record.id == id) := by
  rw [hasId, idColumn]
  rw [show ("user_id" : String) = Record.idField from rfl,
    Table.value_rowOf hnames hapart hfield record]
  exact Record.lookup_idField_beq hid id

theorem changeRow_rowOf (hnames : t.columnNames = fields) (hapart : ColumnName.Apart fields)
    {cells : List (String × String)} (hcells : ∀ name ∈ Entries.keys cells, name ∈ fields)
    (record : Record) :
    changeRow t cells (Table.rowOf fields record) =
      Table.rowOf fields (Entries.setAll record cells) := by
  have hreverse : ∀ name ∈ Entries.keys cells.reverse, name ∈ fields := by
    intro name hname
    rw [Entries.keys_reverse, List.mem_reverse] at hname
    exact hcells name hname
  have hzip : t.columns.zip (Table.rowOf fields record) =
      t.columns.map fun column => (column, record.lookup column.name) := by
    rw [Table.rowOf, ← hnames, Table.columnNames, List.map_map, List.map_prod_left_eq_zip]
    rfl
  have hrow : Table.rowOf fields (Entries.setAll record cells) = t.columns.map fun column =>
      (Entries.setAll record cells).lookup column.name := by
    rw [Table.rowOf, ← hnames, Table.columnNames, List.map_map]
    rfl
  rw [changeRow, hzip, List.map_map, hrow]
  refine List.map_congr_left fun column hcolumn => ?_
  have hname : column.name ∈ fields := by
    rw [← hnames]
    exact List.mem_map_of_mem hcolumn
  have hfind := hapart.find?_eq_lookup hreverse hname
  rw [Entries.lookup_setAll, ← hfind]
  simp only [Function.comp_apply]
  cases (cells.reverse.find? fun cell => sameName cell.1 column.name) with
  | none => rfl
  | some cell => rfl

end Database

/-!
## Clauses
-/

/-- No pattern that a condition becomes is longer than a pattern may be. -/
def Filter.Fits (f : Filter) : Prop :=
  ∀ group ∈ f.groups, ∀ c ∈ group, (Clause.comparisonOf c.operator).isPattern = true →
    (Clause.parameterOf c).utf8ByteSize ≤ Database.maxPattern

instance (f : Filter) : Decidable f.Fits :=
  inferInstanceAs (Decidable (∀ group ∈ f.groups, ∀ c ∈ group, _ → _ ≤ _))

/-- No pattern of the clause is longer than a pattern may be. -/
def Clause.Fits (clause : Clause) : Prop :=
  ∀ terms ∈ clause.groups, ∀ term ∈ terms, term.comparison.isPattern = true →
    ((clause.parameters[term.parameter]?).getD "").utf8ByteSize ≤ Database.maxPattern

theorem Filter.Fits.ofGroups {f : Filter} (h : f.Fits) : (Clause.ofGroups f.groups).Fits := by
  intro terms hterms term hterm hpattern
  rcases Clause.exists_condition_of_mem_ofGroups hterms hterm with
    ⟨group, hgroup, c, hc, -, hcomparison, hparameter⟩
  rw [hcomparison] at hpattern
  rw [hparameter, Option.getD_some]
  exact h group hgroup c hc hpattern

theorem Clause.ne_nil_of_mem_groupsFrom {groups : Groups} (hne : ∀ group ∈ groups, group ≠ [])
    {next : Nat} {terms : List Term} (h : terms ∈ groupsFrom next groups) : terms ≠ [] := by
  induction groups generalizing next with
  | nil => cases h
  | cons group rest ih =>
      rcases List.mem_cons.mp h with rfl | hrest
      · cases hgroup : group with
        | nil => exact absurd hgroup (hne group List.mem_cons_self)
        | cons c more => exact List.cons_ne_nil _ _
      · exact ih (fun other hother => hne other (List.mem_cons_of_mem _ hother)) hrest

namespace Database

theorem select_eq_ok {clause : Clause} (h : clause.Fits) (row : String → Option String) :
    select clause row = .ok (clause.selects row) := by
  rw [select, Clause.selects]
  by_cases hempty : clause.groups.isEmpty = true
  · rw [if_pos hempty, hempty, Bool.true_or]
  · have hgroups : clause.groups.isEmpty = false := by simpa using hempty
    rw [if_neg hempty, hgroups, Bool.false_or]
    refine Steps.anyM_eq_ok fun terms hterms => Steps.allM_eq_ok fun term hterm => ?_
    have hshort : ¬(term.comparison.isPattern &&
        decide (maxPattern < ((clause.parameters[term.parameter]?).getD "").utf8ByteSize)) =
          true := by
      rw [Bool.and_eq_true, decide_eq_true_eq, not_and, Nat.not_lt]
      exact h terms hterms term hterm
    rw [if_neg hshort]

/-- No term of a single group is fixed, so its terms are only put in another order. -/
theorem plan_group {t : Table} {group : List Term} (h : ∀ term ∈ group, isFixed t term = false)
    (parameters : List String) :
    plan t ⟨[group], parameters⟩ =
      (⟨[[]], parameters⟩,
        ⟨[group.filter (isOrdered t) ++ group.filter (not ∘ isOrdered t)], parameters⟩) := by
  have hfixed : group.partition (isFixed t) = ([], group) := by
    rw [List.partition_eq_filter_filter, Prod.mk.injEq]
    refine ⟨List.filter_eq_nil_iff.mpr fun term hterm => ?_,
      List.filter_eq_self.mpr fun term hterm => ?_⟩
    · rw [h term hterm]
      exact Bool.false_ne_true
    · rw [Function.comp_apply, h term hterm]
      rfl
  simp only [plan, hfixed]
  rw [List.partition_eq_filter_filter]

/-- Several groups are looked at row by row, since some term is not fixed. -/
theorem plan_groups {t : Table} {group next : List Term} {more : List (List Term)}
    (hne : group ≠ []) (h : ∀ term ∈ group, isFixed t term = false) (parameters : List String) :
    plan t ⟨group :: next :: more, parameters⟩ =
      (⟨[], parameters⟩, ⟨group :: next :: more, parameters⟩) := by
  have hnot : ((group :: next :: more).all (·.all (isFixed t))) = false := by
    rw [List.all_eq_false]
    refine ⟨group, List.mem_cons_self, ?_⟩
    rw [List.all_eq_true, not_forall]
    rcases List.exists_mem_of_ne_nil group hne with ⟨term, hterm⟩
    refine ⟨term, fun hall => ?_⟩
    rw [h term hterm] at hall
    exact Bool.false_ne_true (hall hterm)
  simp only [plan, hnot]
  rfl

theorem all_filter_append (group : List Term) (first holds : Term → Bool) :
    (group.filter first ++ group.filter (not ∘ first)).all holds = group.all holds := by
  rw [List.all_append, Bool.eq_iff_iff, Bool.and_eq_true, List.all_eq_true, List.all_eq_true,
    List.all_eq_true]
  constructor
  · rintro ⟨hfirst, hothers⟩ term hterm
    cases hterm' : first term with
    | true => exact hfirst term (List.mem_filter.mpr ⟨hterm, hterm'⟩)
    | false =>
        refine hothers term (List.mem_filter.mpr ⟨hterm, ?_⟩)
        rw [Function.comp_apply, hterm']
        rfl
  · intro hall
    exact ⟨fun term hterm => hall term (List.mem_of_mem_filter hterm),
      fun term hterm => hall term (List.mem_of_mem_filter hterm)⟩

/-- Looking at a clause in two steps comes to the same, when all its columns are there and no group
is empty. -/
theorem plan_spec {t : Table} {clause : Clause} (hne : ∀ group ∈ clause.groups, group ≠ [])
    (hknown : ∀ group ∈ clause.groups, ∀ term ∈ group, isFixed t term = false) :
    (∀ row, (plan t clause).1.selects row = true) ∧
      (∀ row, (plan t clause).2.selects row = clause.selects row) ∧
      (clause.Fits → (plan t clause).1.Fits ∧ (plan t clause).2.Fits) := by
  rcases clause with ⟨groups, parameters⟩
  cases groups with
  | nil =>
      refine ⟨fun row => rfl, fun row => rfl, fun _ => ⟨?_, ?_⟩⟩
      · intro terms hterms
        cases hterms
      · intro terms hterms
        cases hterms
  | cons group rest =>
      have hgroup := hknown group List.mem_cons_self
      cases rest with
      | nil =>
          rw [plan_group hgroup]
          refine ⟨fun row => rfl, fun row => ?_, fun hfits => ⟨?_, ?_⟩⟩
          · simp only [Clause.selects, List.isEmpty_cons, Bool.false_or, List.any_cons,
              List.any_nil, Bool.or_false, all_filter_append]
          · intro terms hterms term hterm
            rw [List.mem_singleton.mp hterms] at hterm
            cases hterm
          · intro terms hterms term hterm
            rw [List.mem_singleton.mp hterms] at hterm
            refine hfits group List.mem_cons_self term ?_
            rcases List.mem_append.mp hterm with hordered | hothers
            · exact List.mem_of_mem_filter hordered
            · exact List.mem_of_mem_filter hothers
      | cons next more =>
          rw [plan_groups (hne group List.mem_cons_self) hgroup]
          refine ⟨fun row => rfl, fun row => rfl, fun hfits => ⟨?_, hfits⟩⟩
          intro terms hterms
          cases hterms

end Database
end Roster
