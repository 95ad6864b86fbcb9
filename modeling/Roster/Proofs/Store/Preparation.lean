import Roster.Proofs.Schema.Assembly
import Roster.Proofs.Storage.Archive
import Roster.Proofs.Store.Standing
import Roster.Setup.Shape

/-!
# Prepared storage

Storage that was prepared holds a book without records, whatever was there before.  A store that is
opened on it from what preparing it left behind holds that book.
-/

namespace Roster

/-!
## Trees
-/

/-- What every tree is on which storage is prepared: an entry is inside a directory, databases that
are there have other numbers than those that were removed, and the table with the users has no name
in another case. -/
structure Tree.IsSound (t : Tree) : Prop where
  rooted : ∀ key name, name ≠ "/" → t.find? (key ++ [name]) ≠ none → t.find? key = some .directory
  present : ∀ key serial db, t.find? key = some (.database serial db) →
    t.removed.lookup serial = none
  fresh : t.removed.lookup t.nextSerial = none
  tables : ∀ key serial db, t.find? key = some (.database serial db) → ∀ table ∈ db.tables,
    sameName table.1 TableStore.tableName = true → table.1 = TableStore.tableName

theorem Tree.isSound_empty : Tree.IsSound {} := by
  have hnone : ∀ key, Tree.IsEntryKey key → ({} : Tree).find? key = none := fun key hkey => by
    rw [Tree.find?_eq_lookup hkey]
    rfl
  have hdatabase : ∀ key serial db, ({} : Tree).find? key ≠ some (.database serial db) := by
    intro key serial db hfind
    rw [hnone key (Tree.isEntryKey_of_find? hfind fun heq => nomatch heq)] at hfind
    cases hfind
  constructor
  · exact fun key name hname hfind => absurd (hnone _ (Tree.isEntryKey_append hname)) hfind
  · exact fun key serial db hfind => absurd hfind (hdatabase key serial db)
  · rfl
  · exact fun key serial db hfind => absurd hfind (hdatabase key serial db)

namespace Path

theorem IsPlain.text_ne_empty {p : Path} (h : p.IsPlain) : p.text ≠ "" := by
  intro hempty
  have hread := ofText_text h
  rw [hempty] at hread
  rw [← hread] at hempty
  exact absurd hempty (by decide)

theorem IsPlain.ofValue_text {p : Path} (h : p.IsPlain) : ofValue (.str p.text) = .ok p := by
  rw [ofValue, ofText_text h]

end Path

namespace State

theorem given?_of_lookup {state : Entries} {key text : String}
    (hlookup : state.lookup key = some (.str text)) (hne : text ≠ "") :
    given? state key = some (.str text) := by
  rw [given?, hlookup]
  simp [Option.filter, Value.isGiven, hne]

end State

namespace Preparation

theorem run_ofChange {α : Type} (change : Tree → Except Failure (α × Tree)) (tree : Tree) :
    (Preparation.ofChange change).run tree =
      match change tree with
      | .ok (a, tree') => (.ok a, tree')
      | .error failure => (.error failure, tree) := by
  rw [Preparation.ofChange, Steps.run_bind, Steps.run_get]
  dsimp only
  rw [Steps.run_bind, Steps.run_liftM]
  cases change tree with
  | error failure => rfl
  | ok result => rfl

theorem run_ofChange_eq_ok {α : Type} {change : Tree → Except Failure (α × Tree)}
    {tree tree' : Tree} {a : α} :
    (Preparation.ofChange change).run tree = (.ok a, tree') ↔ change tree = .ok (a, tree') := by
  rw [run_ofChange]
  cases change tree with
  | error failure =>
      constructor
      · rintro ⟨⟩
      · rintro ⟨⟩
  | ok result =>
      constructor
      · rintro ⟨⟩
        rfl
      · rintro ⟨⟩
        rfl

theorem ofChange_failed {α : Type} {change : Tree → Except Failure (α × Tree)} {tree tree' : Tree}
    {failure : Failure} (h : (Preparation.ofChange change).run tree = (.error failure, tree')) :
    change tree = .error failure ∧ tree' = tree := by
  rw [run_ofChange] at h
  cases hchange : change tree with
  | error fault =>
      rw [hchange] at h
      cases h
      exact ⟨rfl, rfl⟩
  | ok result =>
      rw [hchange] at h
      cases h

end Preparation

/-!
## One file
-/

namespace Sheet

theorem writeOr_eq_ok {s : Sheet} {tree tree' : Tree} {content : SheetContent}
    {refusal : Cause → Refusal} (h : s.writeOr tree content refusal = .ok tree') :
    tree'.isDirectory s.directory = true ∧
      tree'.find? s.path.key = some (.file (content.text s.format).toUTF8) := by
  rcases Steps.bind_eq_ok.mp (Steps.mapError_eq_ok.mp h) with ⟨made, hmade, hfile⟩
  split at hfile
  · cases hfile
  · rcases Tree.write_eq_ok hfile with ⟨-, rfl⟩
    have hne : s.directory.key ≠ s.path.key := by
      rw [path_key]
      exact fun heq => by simpa using congrArg List.length heq
    have hdirectory := Tree.isDirectory_iff.mp (Tree.isDirectory_of_makeAll hmade)
    refine ⟨?_, Tree.find?_put_self s.isEntryKey_path _⟩
    rw [Tree.isDirectory_iff, Tree.find?_put_of_ne s.isEntryKey_path _ hne, hdirectory]

theorem prepare_eq_ok {s : Sheet} {fields : List String} {now : Moment} {tree tree' : Tree}
    {prepared : Prepared} (h : s.prepare fields now tree = .ok (prepared, tree')) :
    prepared.state = s.state ∧ tree'.isDirectory s.directory = true ∧
      tree'.find? s.path.key = some (.file (SheetContent.text s.format ⟨fields, []⟩).toUTF8) := by
  rcases Steps.bind_eq_ok.mp h with ⟨⟨archived, cleared⟩, -, h⟩
  rcases Steps.bind_eq_ok.mp h with ⟨written, hwrite, h⟩
  cases h
  exact ⟨rfl, writeOr_eq_ok hwrite⟩

theorem attach_state_eq {s : Sheet} {tree : Tree} (hplain : s.directory.IsPlain) :
    attach s.state tree =
      if tree.isFile s.path then .ok s else .error (.unavailable (.noSheet s.path.text)) := by
  have hdirectory : State.given? s.state "storage_dir" = some (.str s.directory.text) :=
    State.given?_of_lookup rfl hplain.text_ne_empty
  have hformat : State.given? s.state "file_format" = some (.str s.format.name) :=
    State.given?_of_lookup rfl (by cases s.format <;> decide)
  have hpath : (liftM (Path.ofValue (.str s.directory.text)) : Except Fault Path) =
      .ok s.directory := by
    rw [hplain.ofValue_text]
    rfl
  rw [attach, hdirectory, hformat]
  simp only [Option.elim, Value.text, SheetFormat.ofName?_name, hpath, bind, Except.bind]
  rfl

theorem attach_state {s : Sheet} {tree : Tree} (hplain : s.directory.IsPlain)
    (hfile : tree.isFile s.path = true) : attach s.state tree = .ok s := by
  rw [attach_state_eq hplain, if_pos hfile]

theorem eq_of_attach_state {s s' : Sheet} {tree : Tree} (hplain : s.directory.IsPlain)
    (h : attach s.state tree = .ok s') : s' = s := by
  rw [attach_state_eq hplain] at h
  split at h
  · exact (Except.ok.inj h).symm
  · cases h

theorem holds_of_prepare {text : String} {schema : Schema} {options : Entries} {now : Moment}
    {tree tree' : Tree} {prepared : Prepared}
    (h : (Backend.file.prepare (.ofText text) schema options now).run tree = (.ok prepared, tree')) :
    ∃ s : Sheet, s.directory = .ofText text ∧
      SheetFormat.ofName? (formatOption options) = some s.format ∧ prepared.state = s.state ∧
      tree'.isDirectory s.directory = true ∧ tree'.find? s.path.key =
        some (.file (SheetContent.text s.format ⟨schema.fields, []⟩).toUTF8) := by
  rw [Backend.prepare] at h
  split at h
  · rename_i format hformat
    exact ⟨⟨.ofText text, format⟩, rfl, hformat,
      prepare_eq_ok (Preparation.run_ofChange_eq_ok.mp h)⟩
  · cases h

end Sheet

/-!
## Documents
-/

namespace Documents

theorem directoryName_ne : directoryName ≠ ".." ∧ directoryName ≠ "/" := by
  decide

theorem isPart_directoryName : Path.IsPart directoryName := by
  simp only [Path.IsPart]
  decide

/-- Nothing that counts as a document is left behind when the directory is moved away. -/
theorem archive_spec {parent : Path} {tree : Tree} (hsound : tree.IsSound)
    (hparent : tree.isDirectory parent = true) (now : Moment) :
    (archive parent now tree).2.isDirectory parent = true ∧
      (((archive parent now tree).2.names (parent.child directoryName)).filter
        isDocumentName) = [] := by
  rw [archive]
  by_cases hdocuments : hasDocuments (parent.child directoryName) tree = true
  · rw [if_pos hdocuments]
    rcases Archive.name_ne (show 2 ≤ directoryName.toList.length by decide) "" now
      (tree.names parent) with ⟨hstem, hdots, -⟩
    have hold := Path.key_child directoryName_ne.1 parent
    have hnew := Path.key_child hdots parent
    have hapart : ∀ name, ¬parent.key ++ [name] <+: parent.key := by
      intro name hprefix
      have hlength := hprefix.length_le
      rw [List.length_append, List.length_singleton] at hlength
      omega
    constructor
    · rw [Tree.isDirectory_iff, Tree.find?_rename (hold ▸ hapart _) (hnew ▸ hapart _)]
      exact Tree.isDirectory_iff.mp hparent
    · rw [Tree.names_rename, List.filter_nil]
      · rw [hold, hnew, List.length_append, List.length_append]
        rfl
      · rw [hold, hnew, Ne, List.append_singleton_inj, not_and]
        exact fun _ => hstem
  -- Without documents the directory stays where it is, and any document in it would be one to
  -- archive.
  · rw [if_neg hdocuments]
    refine ⟨hparent, ?_⟩
    rw [hasDocuments, Bool.and_eq_true, not_and] at hdocuments
    rw [List.filter_eq_nil_iff]
    intro name hname hdocument
    have hslash : name ≠ "/" := by
      rintro rfl
      exact absurd hdocument (by decide)
    have hthere := hsound.rooted _ name hslash ((Tree.mem_names_iff hslash).mp hname)
    exact hdocuments (Tree.isDirectory_iff.mpr hthere)
      (List.any_eq_true.mpr ⟨name, hname, hdocument⟩)

theorem documents_makeAll {parent : Path} {tree tree' : Tree}
    (hparent : tree.isDirectory parent = true)
    (hnames : (tree.names (parent.child directoryName)).filter isDocumentName = [])
    (h : tree.makeAll (parent.child directoryName) = .ok tree') :
    (tree'.names (parent.child directoryName)).filter isDocumentName = [] := by
  rcases Tree.makeAll_child directoryName_ne.1 hparent h with ⟨-, rfl⟩ | ⟨hnone, rfl⟩
  · exact hnames
  · have hin : Tree.nameIn (parent.child directoryName).key
        (parent.child directoryName).key = none := by
      rw [Option.eq_none_iff_forall_ne_some]
      intro name hname
      simpa using congrArg List.length (Tree.nameIn_eq_some_iff.mp hname)
    rw [Tree.names_put (Tree.isEntryKey_of_find?_eq_none hnone), if_pos hnone, hin]
    simpa using hnames

def stateIn (parent : Path) (fields : List String) : Entries :=
  [("storage_dir", .str parent.text), ("records_dir", .str (parent.child directoryName).text),
    ("fields", .list (fields.map .str))]

theorem holds_of_prepare {parent : Path} {fields : List String} {now : Moment} {tree tree' : Tree}
    {prepared : Prepared} (hsound : tree.IsSound) (hparent : tree.isDirectory parent = true)
    (h : prepare parent fields now tree = .ok (prepared, tree')) :
    prepared.state = stateIn parent fields ∧
      Holds ⟨parent.child directoryName, fields⟩ tree' ⟨fields, []⟩ := by
  rcases archive_spec hsound hparent now with ⟨hdirectory, hnames⟩
  unfold prepare at h
  cases harchive : archive parent now tree with
  | mk archived cleared =>
      rw [harchive] at h hdirectory hnames
      rcases Steps.bind_eq_ok.mp h with ⟨made, hmade, h⟩
      cases h
      have hmade := Steps.mapError_eq_ok.mp hmade
      refine ⟨rfl, rfl, Tree.isDirectory_of_makeAll hmade, ?_, ?_, ?_⟩
      · rw [documents_makeAll hdirectory hnames hmade]
        exact List.Perm.refl _
      · exact fun record hrecord => nomatch hrecord
      · exact fun record hrecord => nomatch hrecord

theorem attach_stateIn {parent : Path} {fields : List String} {tree : Tree} {b : Book}
    (hplain : parent.IsPlain) (hne : fields ≠ [])
    (h : Holds ⟨parent.child directoryName, fields⟩ tree b) :
    attach (stateIn parent fields) tree = .ok ⟨parent.child directoryName, fields⟩ := by
  have hchild := hplain.child isPart_directoryName
  have hrecords : State.given? (stateIn parent fields) "records_dir" =
      some (.str (parent.child directoryName).text) :=
    State.given?_of_lookup rfl hchild.text_ne_empty
  have hfields : State.given? (stateIn parent fields) "fields" =
      some (.list (fields.map .str)) := by
    rw [State.given?, show (stateIn parent fields).lookup "fields" =
      some (.list (fields.map .str)) from rfl]
    simp [Option.filter, Value.isGiven, hne]
  have hdirectory : (liftM (directoryOf (stateIn parent fields)) : Except Fault (Option Value)) =
      .ok (some (.str (parent.child directoryName).text)) := by
    rw [directoryOf, hrecords]
    rfl
  have hpath : (liftM (Path.ofValue (.str (parent.child directoryName).text)) :
      Except Fault Path) = .ok (parent.child directoryName) := by
    rw [hchild.ofValue_text]
    rfl
  have hitems : (liftM (Value.list (fields.map .str)).items : Except Fault (List Value)) =
      .ok (fields.map .str) := rfl
  have htexts : (fields.map Value.str).filterMap Value.text? = fields := by
    rw [List.filterMap_map]
    exact List.filterMap_some
  rw [attach, hdirectory]
  simp only [bind, Except.bind, hpath, hfields, hitems, htexts, h.directory]
  rfl

end Documents

/-!
## A table
-/

namespace TableStore

theorem prepare_run (directory : Path) (schema : Schema) (now : Moment) (tree : Tree) :
    (prepare directory schema now).run tree =
      let path := directory.child fileName
      let refuse (fault : QueryFault) : Failure := .refused (.cannotPrepareTable path.text fault)
      match reach path tree with
      | .error fault => (.error (refuse fault), tree)
      | .ok ((serial?, db), reached) =>
          let cleared := if serial?.isSome then
            keep path serial? (db.clear tableName now).2 reached else reached
          match columnsOf schema with
          | .error failure => (.error failure, cleared)
          | .ok columns =>
              match (db.clear tableName now).2.create tableName columns with
              | .error fault => (.error (refuse fault), cleared)
              | .ok made =>
                  (.ok { state := stateIn directory, archivedTo := (db.clear tableName now).1 },
                    keep path serial? made cleared) := by
  rw [prepare, Steps.run_bind, Preparation.run_ofChange]
  dsimp only
  cases hreach : reach (directory.child fileName) tree with
  | error fault => rfl
  | ok found =>
      rcases found with ⟨⟨serial?, db⟩, reached⟩
      simp only [Except.mapError]
      rw [Steps.run_bind, Steps.run_modify]
      dsimp only
      rw [Steps.run_bind, Steps.run_liftM]
      cases hcolumns : columnsOf schema with
      | error failure => rfl
      | ok columns =>
          dsimp only
          rw [Steps.run_bind, Steps.run_liftM]
          cases hcreate : (db.clear tableName now).2.create tableName columns with
          | error fault => rfl
          | ok made => rfl

/-- What a table that could be prepared was made from. -/
theorem prepare_eq_ok {directory : Path} {schema : Schema} {now : Moment} {tree tree' : Tree}
    {prepared : Prepared} (h : (prepare directory schema now).run tree = (.ok prepared, tree')) :
    ∃ serial? db reached columns made,
      reach (directory.child fileName) tree = .ok ((serial?, db), reached) ∧
      columnsOf schema = .ok columns ∧
      (db.clear tableName now).2.create tableName columns = .ok made ∧
      prepared = { state := stateIn directory, archivedTo := (db.clear tableName now).1 } ∧
      tree' = keep (directory.child fileName) serial? made
        (if serial?.isSome then
          keep (directory.child fileName) serial? (db.clear tableName now).2 reached
        else reached) := by
  rw [prepare_run] at h
  dsimp only at h
  split at h
  · cases h
  · rename_i serial? db reached hreach
    split at h
    · cases h
    · rename_i columns hcolumns
      split at h
      · cases h
      · rename_i made hmade
        cases h
        exact ⟨serial?, db, reached, columns, made, hreach, hcolumns, hmade, rfl, rfl⟩

theorem key_file (directory : Path) :
    (directory.child fileName).key = directory.key ++ [fileName] :=
  Path.key_child (by decide) directory

theorem isEntryKey_file (directory : Path) : Tree.IsEntryKey (directory.child fileName).key := by
  rw [key_file]
  exact Tree.isEntryKey_append (by decide)

theorem isPart_fileName : Path.IsPart fileName := by
  simp only [Path.IsPart]
  decide

/-- The number under which a database is kept. -/
def serialFor (serial? : Option Nat) (tree : Tree) : Nat := serial?.getD tree.nextSerial

theorem find?_keep {path : Path} (hkey : Tree.IsEntryKey path.key) (serial? : Option Nat)
    (db : Database) (tree : Tree) :
    (keep path serial? db tree).find? path.key =
      some (.database (serialFor serial? tree) db) := by
  cases serial? with
  | some serial => exact Tree.find?_put_self hkey _
  | none => exact Tree.find?_put_self hkey _

theorem removed_keep (path : Path) (serial? : Option Nat) (db : Database) (tree : Tree) :
    (keep path serial? db tree).removed = tree.removed := by
  cases serial? with
  | some serial => rfl
  | none => rfl

theorem reach_eq_ok {path : Path} {tree reached : Tree} {serial? : Option Nat} {db : Database}
    (h : reach path tree = .ok ((serial?, db), reached)) :
    reached.removed = tree.removed ∧ reached.nextSerial = tree.nextSerial ∧
      (serial? = none ∧ db = {} ∨
        ∃ serial, serial? = some serial ∧ tree.find? path.key = some (.database serial db)) := by
  unfold reach at h
  split at h
  · rename_i serial db hfind
    cases h
    exact ⟨rfl, rfl, Or.inr ⟨serial, rfl, hfind⟩⟩
  · split at h
    · cases h
      exact ⟨rfl, rfl, Or.inl ⟨rfl, rfl⟩⟩
    · cases h
  · cases h
  · split at h
    · rename_i hwrite
      cases h
      rcases Tree.write_eq_ok hwrite with ⟨-, rfl⟩
      exact ⟨rfl, rfl, Or.inl ⟨rfl, rfl⟩⟩
    · cases h

theorem length_eq_of_sameName {a b : String} (h : sameName a b = true) :
    a.toList.length = b.toList.length := by
  rw [sameName, beq_iff_eq] at h
  simpa using congrArg List.length h

theorem table?_clear {db : Database} (now : Moment)
    (htables : ∀ table ∈ db.tables, sameName table.1 tableName = true → table.1 = tableName) :
    (db.clear tableName now).2.table? tableName = none := by
  rw [Database.table?, Option.map_eq_none_iff, List.find?_eq_none]
  intro table hmem
  rw [Bool.not_eq_true, Bool.eq_false_iff]
  intro hsame
  rw [Database.clear] at hmem
  split at hmem
  · split at hmem
    · have hkept := (List.mem_filter.mp hmem).2
      rw [hsame] at hkept
      exact absurd hkept (by decide)
    · rcases List.mem_map.mp hmem with ⟨old, hold, rfl⟩
      split at hsame
      · have hlength := Archive.length_lt_name tableName "" now db.tableNames
        have hequal := length_eq_of_sameName hsame
        dsimp only at hequal
        omega
      · rename_i hother
        exact hother hsame
  · rename_i hnone
    rw [List.contains_iff_mem] at hnone
    refine hnone (List.mem_map.mpr ⟨table, hmem, ?_⟩)
    exact htables table hmem hsame

/-!
## Columns
-/

theorem column_eq_ok {schema : Schema} {name : String} {column : Column}
    (h : TableStore.column schema name = .ok column) :
    column.name = name ∧ column.unique = (name == Record.idField) := by
  unfold TableStore.column at h
  split at h
  · rcases Steps.bind_eq_ok.mp h with ⟨kind, -, h⟩
    cases h
    exact ⟨rfl, rfl⟩
  · cases h
    exact ⟨rfl, rfl⟩

theorem mapM_column_eq_ok {schema : Schema} {fields : List String} {columns : List Column}
    (h : fields.mapM (TableStore.column schema) = .ok columns) :
    columns.map Column.name = fields ∧
      ∀ column ∈ columns, column.unique = true → column.name = Record.idField := by
  induction fields generalizing columns with
  | nil =>
      cases h
      exact ⟨rfl, fun column hcolumn => nomatch hcolumn⟩
  | cons name rest ih =>
      rw [List.mapM_cons] at h
      rcases Steps.bind_eq_ok.mp h with ⟨first, hfirst, h⟩
      rcases Steps.bind_eq_ok.mp h with ⟨others, hothers, h⟩
      cases h
      rcases column_eq_ok hfirst with ⟨hname, hunique⟩
      rcases ih hothers with ⟨hnames, hids⟩
      refine ⟨by rw [List.map_cons, hname, hnames], fun column hcolumn => ?_⟩
      rcases List.mem_cons.mp hcolumn with rfl | hcolumn
      · intro hid
        rw [hunique, beq_iff_eq] at hid
        exact hname.trans hid
      · exact hids column hcolumn

end TableStore

namespace ColumnName

theorem unshield_of_not_mem {cs : List Char} (h : '\\' ∉ cs) : unshield cs = cs := by
  induction cs with
  | nil => rfl
  | cons c rest ih =>
      rw [List.mem_cons, not_or] at h
      have hc : (c == '\\') = false := by simpa using fun heq => h.1 heq.symm
      rw [unshield, hc, Bool.false_and, if_neg Bool.false_ne_true, ih h.2]

end ColumnName

namespace Database

theorem go_eq_none_iff {seen names : List String} :
    firstRepeated.go seen names = none ↔ (names.map Text.foldAscii).Nodup ∧
      ∀ name ∈ names, ∀ other ∈ seen, Text.foldAscii name ≠ Text.foldAscii other := by
  induction names generalizing seen with
  | nil => exact iff_of_true rfl ⟨List.nodup_nil, List.forall_mem_nil _⟩
  | cons name rest ih =>
      have hnew : seen.any (sameName name) = true ↔
          ¬∀ other ∈ seen, Text.foldAscii name ≠ Text.foldAscii other := by
        simp only [List.any_eq_true, sameName_iff]
        push Not
        rfl
      rw [firstRepeated.go, List.map_cons, List.nodup_cons, List.forall_mem_cons]
      split
      · rename_i hold
        exact iff_of_false (Option.some_ne_none name) fun h => hnew.mp hold h.2.1
      · rename_i hfree
        have hapart := not_not.mp (mt hnew.mpr hfree)
        rw [ih]
        simp only [List.forall_mem_cons, List.mem_map, not_exists, not_and, forall_and]
        constructor
        · rintro ⟨hnodup, hname, hseen⟩
          exact ⟨⟨hname, hnodup⟩, hapart, hseen⟩
        · rintro ⟨⟨hname, hnodup⟩, -, hseen⟩
          exact ⟨hnodup, hname, hseen⟩

/-- The columns that are meant by those that are asked for. -/
def meant (columns : List Column) : List Column :=
  columns.map fun c => { c with name := String.ofList (ColumnName.unshield c.name.toList) }

theorem meant_eq_self {columns : List Column} (hshield : ∀ column ∈ columns,
    ColumnName.unshield column.name.toList = column.name.toList) : meant columns = columns := by
  refine (List.map_congr_left fun column hcolumn => ?_).trans (List.map_id _)
  rw [hshield column hcolumn, String.ofList_toList]
  rfl

/-- A table that was made was checked and has the columns that are meant. -/
theorem create_eq_add {db db' : Database} {name : String} {columns : List Column}
    (h : db.create name columns = .ok db') :
    ColumnName.check (columns.map Column.name) = .ok () ∧
      firstRepeated ((meant columns).map Column.name) = none ∧
      db' = db.add name { columns := meant columns } := by
  rcases Steps.bind_eq_ok.mp h with ⟨⟨⟩, hcheck, h⟩
  split at h
  · cases h
  · dsimp only at h
    split at h
    · cases h
    · rename_i hrepeated
      exact ⟨hcheck, hrepeated, (Except.ok.inj h).symm⟩

theorem create_eq_ok {db db' : Database} {name : String} {columns : List Column}
    (h : db.create name columns = .ok db')
    (hshield : ∀ column ∈ columns,
      ColumnName.unshield column.name.toList = column.name.toList) :
    ColumnName.Distinct (columns.map Column.name) ∧ db' = db.add name { columns } := by
  rcases create_eq_add h with ⟨hcheck, hrepeated, hadd⟩
  rw [meant_eq_self hshield] at hrepeated hadd
  refine ⟨⟨(go_eq_none_iff.mp hrepeated).1, ?_⟩, hadd⟩
  rw [ColumnName.check] at hcheck
  split at hcheck
  · cases hcheck
  · rename_i hnone
    rw [List.findSome?_eq_none_iff] at hnone
    exact hnone

theorem table?_add {db : Database} {name : String} (hnone : db.table? name = none) (t : Table) :
    (db.add name t).table? name = some t := by
  rw [table?, Option.map_eq_none_iff] at hnone
  rw [table?, add, List.find?_append, hnone]
  simp [sameName]

end Database

namespace TableStore

theorem attach_stateIn {directory : Path} {tree : Tree} {serial : Nat} {db : Database} {t : Table}
    (hplain : directory.IsPlain)
    (hfind : tree.find? (directory.child fileName).key = some (.database serial db))
    (hname : db.tableNames.contains tableName = true) (htable : db.table? tableName = some t) :
    attach (stateIn directory) tree =
      .ok ⟨directory.child fileName, serial, tableName, t.columnNames, false⟩ := by
  have hchild := hplain.child isPart_fileName
  have hpath : State.given? (stateIn directory) "db_full_path" =
      some (.str (directory.child fileName).text) :=
    State.given?_of_lookup rfl hchild.text_ne_empty
  have htableName : State.given? (stateIn directory) "table_name" = some (.str tableName) :=
    State.given?_of_lookup rfl (by decide)
  have hfile : (liftM (fileOf (stateIn directory)) : Except Fault Path) =
      .ok (directory.child fileName) := by
    rw [fileOf, hpath]
    dsimp only
    rw [hchild.ofValue_text]
    rfl
  have hthere : tree.isFile (directory.child fileName) = true :=
    Tree.isFile_of_find? hfind fun heq => nomatch heq
  have hreach : reach (directory.child fileName) tree = .ok ((some serial, db), tree) := by
    unfold reach
    rw [hfind]
  rw [attach, hfile]
  simp only [bind, Except.bind, htableName, hthere, hreach, Option.elim, Value.text, hname, htable]
  rfl

/-- A new table can be opened. It has the columns that the fields mean and no rows. -/
theorem attach_of_prepare {directory : Path} {schema : Schema} {now : Moment} {tree tree' : Tree}
    {prepared : Prepared} (hplain : directory.IsPlain) (hsound : tree.IsSound)
    (h : (prepare directory schema now).run tree = (.ok prepared, tree')) :
    ∃ serial columns made, columnsOf schema = .ok columns ∧
      attach prepared.state tree' = .ok ⟨directory.child fileName, serial, tableName,
        (Database.meant columns).map Column.name, false⟩ ∧
      (∃ db : Database, db.create tableName columns = .ok made) ∧
      tree'.find? (directory.child fileName).key = some (.database serial made) ∧
      made.table? tableName = some { columns := Database.meant columns } ∧
      tree'.removed.lookup serial = none := by
  rcases prepare_eq_ok h with
    ⟨serial?, db, reached, columns, made, hreach, hcolumns, hmade, rfl, rfl⟩
  have hkey := isEntryKey_file directory
  rcases reach_eq_ok hreach with ⟨hremoved, hnext, hfound⟩
  have hnone : (db.clear tableName now).2.table? tableName = none := by
    refine table?_clear now fun table hmem => ?_
    rcases hfound with ⟨-, rfl⟩ | ⟨serial, -, hfind⟩
    · cases hmem
    · exact hsound.tables _ serial db hfind table hmem
  rcases Database.create_eq_add hmade with ⟨-, -, hadd⟩
  have htable := Database.table?_add hnone { columns := Database.meant columns }
  rw [← hadd] at htable
  have hname : made.tableNames.contains tableName = true := by
    rw [hadd, Database.tableNames, Database.add, List.map_append]
    simp
  have hfind := find?_keep hkey serial? made
    (if serial?.isSome then keep (directory.child fileName) serial?
      (db.clear tableName now).2 reached else reached)
  -- The database has the number that it had, or a new one; no database that was removed has either.
  refine ⟨_, columns, made, hcolumns, attach_stateIn hplain hfind hname htable, ⟨_, hmade⟩, hfind,
    htable, ?_⟩
  rw [removed_keep]
  rcases hfound with ⟨rfl, -⟩ | ⟨serial, rfl, hold⟩
  · simp only [serialFor, Option.getD_none, Option.isSome_none, Bool.false_eq_true, if_false]
    rw [hremoved, hnext]
    exact hsound.fresh
  · simp only [serialFor, Option.getD_some, Option.isSome_some, if_true]
    rw [removed_keep, hremoved]
    exact hsound.present _ serial db hold

theorem holds_of_prepare {directory : Path} {schema : Schema} {now : Moment} {tree tree' : Tree}
    {prepared : Prepared} (hplain : directory.IsPlain)
    (hshield : ∀ name ∈ schema.fields, ColumnName.unshield name.toList = name.toList)
    (hsound : tree.IsSound)
    (h : (prepare directory schema now).run tree = (.ok prepared, tree')) :
    ∃ s : TableStore, attach prepared.state tree' = .ok s ∧ s.Holds tree' ⟨schema.fields, []⟩ := by
  rcases attach_of_prepare hplain hsound h with
    ⟨serial, columns, made, hcolumns, hattach, ⟨db, hmade⟩, hfind, htable, hremoved⟩
  rcases mapM_column_eq_ok (Steps.mapError_eq_ok.mp hcolumns) with ⟨hnames, hids⟩
  have hcolumnShield : ∀ column ∈ columns,
      ColumnName.unshield column.name.toList = column.name.toList := by
    intro column hcolumn
    refine hshield column.name ?_
    rw [← hnames]
    exact List.mem_map_of_mem hcolumn
  rcases Database.create_eq_ok hmade hcolumnShield with ⟨hdistinct, -⟩
  rw [Database.meant_eq_self hcolumnShield] at hattach htable
  rw [hnames] at hdistinct
  exact ⟨_, hattach, rfl, hremoved, hnames, hdistinct, made, { columns }, hfind, htable, hnames,
    hids, rfl⟩

end TableStore

/-!
## Any storage
-/

theorem Shape.isWritten_of_isIdentifier {cs : List Char} (h : isIdentifier cs = true) {c : Char}
    (hc : c ∈ cs) : (isInitial c || c.isDigit || c == '\n') = true := by
  cases cs with
  | nil => cases hc
  | cons first rest =>
      rw [isIdentifier, Bool.and_eq_true] at h
      rcases List.mem_cons.mp hc with rfl | hrest
      · rw [h.1]
        rfl
      · rw [← List.takeWhile_append_dropWhile (p := fun c => isInitial c || c.isDigit) (l := rest),
          List.mem_append] at hrest
        rcases hrest with hfront | htail
        · have hkept := List.all_eq_true.mp List.all_takeWhile c hfront
          rw [hkept]
          rfl
        · have hend := h.2
          rw [Bool.or_eq_true, List.isEmpty_iff, beq_iff_eq] at hend
          rcases hend with hnil | hline
          · rw [hnil] at htail
            cases htail
          · rw [hline, List.mem_singleton] at htail
            rw [htail]
            decide

theorem ColumnName.unshield_of_isIdentifier {name : String}
    (h : Shape.isIdentifier name.toList = true) : unshield name.toList = name.toList :=
  unshield_of_not_mem fun hslash =>
    absurd (Shape.isWritten_of_isIdentifier h hslash) (by decide)

/-- A store can be opened on storage that was prepared.  It holds the book without records, unless
the names of the fields do not fit into a file. -/
theorem Backend.opened_of_prepare {backend : Backend} {text : String} {schema : Schema}
    {options : Entries} {now : Moment} {tree tree' : Tree} {prepared : Prepared}
    (hschema : schema.Sound)
    (hshield : backend = .database →
      ∀ name ∈ schema.fields, ColumnName.unshield name.toList = name.toList)
    (hsound : tree.IsSound) (hdirectory : tree.isDirectory (.ofText text) = true)
    (h : (backend.prepare (.ofText text) schema options now).run tree = (.ok prepared, tree')) :
    ∃ store, Store.attach backend prepared.state tree' = .ok store ∧
      store.Stands tree' schema.fields ∧
      ((backend = .file → Delimited.Fits schema.fields) →
        store.Holds tree' ⟨schema.fields, []⟩) := by
  have hpath := Path.isPlain_ofText text
  have hbook := Book.sound_empty hschema.nodup hschema.known
  cases backend with
  | database =>
      rcases TableStore.holds_of_prepare hpath (hshield rfl) hsound h with ⟨s, hattach, hholds⟩
      refine ⟨.table s, ?_, ⟨_, hbook, rfl, hholds⟩, fun _ => hholds⟩
      rw [Store.attach, hattach]
      rfl
  | file =>
      rcases Sheet.holds_of_prepare h with ⟨s, hplace, -, hstate, hthere, hfile⟩
      have hattach : Sheet.attach prepared.state tree' = .ok s := by
        rw [hstate]
        exact Sheet.attach_state (hplace ▸ hpath)
          (Tree.isFile_of_find? hfile fun heq => nomatch heq)
      have hholds : Delimited.Fits schema.fields → s.Holds tree' ⟨schema.fields, []⟩ :=
        fun hfits => ⟨hthere, hfile, hfits, fun record hrecord => nomatch hrecord⟩
      refine ⟨.sheet s, ?_, ?_, fun hfits => hholds (hfits rfl)⟩
      · rw [Store.attach, hattach]
        rfl
      -- A file with the name of a field that is too long for a cell can be opened, but not read.
      · by_cases hfits : Delimited.Fits schema.fields
        · exact Or.inl ⟨_, hbook, rfl, hholds hfits⟩
        · refine Or.inr (Sheet.unreadable_of_long hfile fun hall => hfits ?_)
          exact hall _ List.mem_cons_self
  | yaml =>
      rcases Documents.holds_of_prepare hsound hdirectory (Preparation.run_ofChange_eq_ok.mp h) with
        ⟨hstate, hholds⟩
      refine ⟨.documents ⟨(Path.ofText text).child Documents.directoryName, schema.fields⟩, ?_,
        rfl, fun _ => hholds⟩
      rw [Store.attach, hstate, Documents.attach_stateIn hpath hschema.ne_nil hholds]
      rfl

namespace Mounted

/-- The store was opened on storage that was prepared for a schema. -/
def IsSetUp (backend : Backend) (schema : Schema) (m : Mounted Store) : Prop :=
  ∃ (text : String) (options : Entries) (now : Moment) (tree : Tree) (prepared : Prepared),
    tree.IsSound ∧ tree.isDirectory (.ofText text) = true ∧
      (backend.prepare (.ofText text) schema options now).run tree = (.ok prepared, m.tree) ∧
      Store.attach backend prepared.state m.tree = .ok m.store

section SettingUp

variable {backend : Backend} {schema : Schema}

theorem backend_of_isSetUp {m : Mounted Store} (h : m.IsSetUp backend schema) :
    m.store.backend = backend := by
  rcases h with ⟨text, options, now, tree, prepared, -, -, -, hattach⟩
  cases backend with
  | database =>
      rcases Steps.map_eq_ok.mp hattach with ⟨s, -, hstore⟩
      rw [← hstore]
      rfl
  | file =>
      rcases Steps.map_eq_ok.mp hattach with ⟨s, -, hstore⟩
      rw [← hstore]
      rfl
  | yaml =>
      rcases Steps.map_eq_ok.mp hattach with ⟨s, -, hstore⟩
      rw [← hstore]
      rfl

theorem opened_of_isSetUp {m : Mounted Store} (hschema : schema.Sound)
    (hshield : backend = .database →
      ∀ name ∈ schema.fields, ColumnName.unshield name.toList = name.toList)
    (h : m.IsSetUp backend schema) :
    m.Stands schema.fields ∧
      ((backend = .file → Delimited.Fits schema.fields) → m.Holds ⟨schema.fields, []⟩) := by
  rcases h with ⟨text, options, now, tree, prepared, hsound, hdirectory, hprepare, hattach⟩
  rcases Backend.opened_of_prepare hschema hshield hsound hdirectory hprepare with
    ⟨store, hopened, hstands, hholds⟩
  rw [hopened] at hattach
  cases hattach
  exact ⟨hstands, hholds⟩

/-- Wherever storage can be prepared, a store is set up. -/
theorem exists_isSetUp {text : String} {options : Entries} {now : Moment} {tree : Tree}
    (hschema : schema.Sound)
    (hshield : backend = .database →
      ∀ name ∈ schema.fields, ColumnName.unshield name.toList = name.toList)
    (hsound : tree.IsSound) (hdirectory : tree.isDirectory (.ofText text) = true)
    (h : ((backend.prepare (.ofText text) schema options now).run tree).1.isOk = true) :
    ∃ m : Mounted Store, m.IsSetUp backend schema := by
  cases hrun : (backend.prepare (.ofText text) schema options now).run tree with
  | mk result tree' =>
      rw [hrun] at h
      cases result with
      | error failure => cases h
      | ok prepared =>
          rcases Backend.opened_of_prepare hschema hshield hsound hdirectory hrun with
            ⟨store, hattach, -, -⟩
          exact ⟨⟨store, tree'⟩, text, options, now, tree, prepared, hsound, hdirectory, hrun,
            hattach⟩

end SettingUp
end Mounted
end Roster
