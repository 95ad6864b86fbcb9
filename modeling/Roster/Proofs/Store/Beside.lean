import Roster.Proofs.Store.Place
import Roster.Proofs.Store.Preparation

/-!
# What stands beside a database

Preparing a table touches no file but that of the database.  A store that keeps its records
elsewhere can be opened as before and lists the same records.
-/

namespace Roster

/-- The trees differ at most in the file of the database in a directory, and there is no directory
of that name in either. -/
structure Tree.Beside (directory : Path) (t t' : Tree) : Prop where
  find? : ∀ key, key ≠ (directory.child TableStore.fileName).key → t'.find? key = t.find? key
  isDirectory : ∀ p, t'.isDirectory p = t.isDirectory p
  documents : ∀ p, (t'.names p).filter Documents.isDocumentName =
    (t.names p).filter Documents.isDocumentName
  removed : t'.removed = t.removed

namespace Tree

variable {directory : Path} {t t' t'' : Tree}

theorem Beside.refl (directory : Path) (t : Tree) : Beside directory t t :=
  ⟨fun _ _ => rfl, fun _ => rfl, fun _ => rfl, rfl⟩

theorem Beside.trans (h : Beside directory t t') (h' : Beside directory t' t'') :
    Beside directory t t'' where
  find? := fun key hkey => (h'.find? key hkey).trans (h.find? key hkey)
  isDirectory := fun p => (h'.isDirectory p).trans (h.isDirectory p)
  documents := fun p => (h'.documents p).trans (h.documents p)
  removed := h'.removed.trans h.removed

theorem isDocumentName_fileName : Documents.isDocumentName TableStore.fileName = false := by
  decide

/-- A database, or an empty file that becomes one, is put in place. -/
theorem beside_put {entry : Entry} (hentry : entry ≠ .directory)
    (hdirectory : t.find? (directory.child TableStore.fileName).key ≠ some .directory) :
    Beside directory t (t.put (directory.child TableStore.fileName).key entry) where
  find? := fun key hkey => find?_put_of_ne (TableStore.isEntryKey_file directory) entry hkey
  isDirectory := by
    intro p
    rw [Bool.eq_iff_iff, isDirectory_iff, isDirectory_iff,
      find?_put (TableStore.isEntryKey_file directory)]
    by_cases hkey : p.key = (directory.child TableStore.fileName).key
    · rw [if_pos hkey, hkey]
      exact iff_of_false (fun heq => hentry (Option.some.inj heq)) hdirectory
    · rw [if_neg hkey]
  documents := by
    intro p
    rw [names_put (TableStore.isEntryKey_file directory)]
    by_cases hfind : t.find? (directory.child TableStore.fileName).key = none
    · rw [if_pos hfind, List.filter_append]
      cases hname : nameIn p.key (directory.child TableStore.fileName).key with
      | none => exact List.append_nil _
      | some name =>
          rw [nameIn_eq_some_iff, TableStore.key_file, List.append_singleton_inj] at hname
          rw [← hname.2, Option.toList_some, List.filter_singleton, isDocumentName_fileName]
          exact List.append_nil _
    · rw [if_neg hfind]
  removed := rfl

variable {p : Path}

theorem Beside.isFile (h : Beside directory t t')
    (hkey : p.key ≠ (directory.child TableStore.fileName).key) : t'.isFile p = t.isFile p := by
  rw [Tree.isFile, Tree.isFile, h.find? p.key hkey]

theorem Beside.read (h : Beside directory t t')
    (hkey : p.key ≠ (directory.child TableStore.fileName).key) (hthere : t.find? p.key ≠ none) :
    t'.read p = t.read p := by
  rw [Tree.read, Tree.read, h.find? p.key hkey]
  cases hfind : t.find? p.key with
  | none => exact absurd hfind hthere
  | some entry => cases entry <;> rfl

theorem find?_of_isFile (h : t.isFile p = true) : t.find? p.key ≠ none := by
  intro hnone
  rw [isFile_of_none hnone] at h
  cases h

end Tree

theorem Path.key_child_ne {name other : String} (hname : name ≠ "..") (hother : other ≠ "..")
    (hne : name ≠ other) (p q : Path) : (p.child name).key ≠ (q.child other).key := by
  rw [key_child hname, key_child hother, Ne, List.append_singleton_inj, not_and]
  exact fun _ => hne

/-!
## One file
-/

namespace Sheet

variable {directory : Path} {t t' : Tree} {s : Sheet} {state : Entries}

theorem fileName_ne_database (format : SheetFormat) : fileName format ≠ TableStore.fileName := by
  cases format with
  | tsv => decide
  | csv => decide

theorem key_path_ne (s : Sheet) (directory : Path) :
    s.path.key ≠ (directory.child TableStore.fileName).key :=
  Path.key_child_ne (fileName_ne s.format).1 (by decide) (fileName_ne_database s.format)
    s.directory directory

theorem attach_beside (h : Tree.Beside directory t t') (state : Entries) :
    attach state t' = attach state t := by
  have hfile : ∀ s : Sheet, t'.isFile s.path = t.isFile s.path :=
    fun s => h.isFile (s.key_path_ne directory)
  unfold attach
  simp only [hfile]

theorem list_beside (h : Tree.Beside directory t t') (hattach : attach state t = .ok s)
    (filter : Filter) : s.list t' filter = s.list t filter := by
  have hread := h.read (s.key_path_ne directory) (Tree.find?_of_isFile (attach_eq_ok hattach).1)
  rw [list, list, readOr, readOr, Sheet.read, Sheet.read, hread]

end Sheet

/-!
## Documents
-/

namespace Documents

variable {directory : Path} {t t' : Tree}

theorem attach_beside (h : Tree.Beside directory t t') (state : Entries) :
    attach state t' = attach state t := by
  unfold attach
  simp only [h.isDirectory]

theorem key_document_ne {name : String} (hname : isDocumentName name = true) (p directory : Path) :
    (p.child name).key ≠ (directory.child TableStore.fileName).key := by
  refine Path.key_child_ne ?_ (by decide) ?_ p directory
  · rintro rfl
    exact absurd hname (by decide)
  · rintro rfl
    exact absurd hname (by decide)

theorem load_beside (h : Tree.Beside directory t t') {p : Path} {name : String}
    (hname : name ∈ t.names p) (hdocument : isDocumentName name = true) :
    load t' (p.child name) = load t (p.child name) := by
  have hslash : name ≠ "/" := by
    rintro rfl
    exact absurd hdocument (by decide)
  have hdots : name ≠ ".." := by
    rintro rfl
    exact absurd hdocument (by decide)
  have hthere := (Tree.mem_names_iff hslash).mp hname
  rw [← Path.key_child hdots] at hthere
  rw [load, load, h.read (key_document_ne hdocument p directory) hthere]

theorem readable_beside (h : Tree.Beside directory t t') (p : Path) {names : List String}
    (hnames : ∀ name ∈ names, name ∈ t.names p ∧ isDocumentName name = true) :
    readable p t' names = readable p t names := by
  induction names with
  | nil => rfl
  | cons name rest ih =>
      rcases hnames name List.mem_cons_self with ⟨hname, hdocument⟩
      have hrest := ih fun other hother => hnames other (List.mem_cons_of_mem _ hother)
      rw [readable, readable, load_beside h hname hdocument, hrest]

theorem list_beside (h : Tree.Beside directory t t') (s : Documents) (filter : Filter) :
    s.list t' filter = s.list t filter := by
  have hnames : documentNames s.directory t' = documentNames s.directory t := by
    rw [documentNames, documentNames, h.documents]
  rw [list, list, hnames, readable_beside h]
  intro name hname
  rw [documentNames, List.mem_mergeSort] at hname
  exact List.mem_filter.mp hname

end Documents

/-!
## A table
-/

namespace TableStore

variable {directory : Path} {t t' : Tree} {s : TableStore} {state : Entries}

theorem attach_beside (h : Tree.Beside directory t t') (hattach : attach state t = .ok s)
    (hkey : s.path.key ≠ (directory.child fileName).key) : attach state t' = .ok s :=
  attach_of_find? hattach (h.find? s.path.key hkey)

theorem list_beside (h : Tree.Beside directory t t')
    (hkey : s.path.key ≠ (directory.child fileName).key) (filter : Filter) :
    s.list t' filter = s.list t filter := by
  rw [list, list, query, query, access, access, h.removed, h.find? s.path.key hkey]

end TableStore

/-!
## Any store
-/

namespace Store

/-- The store does not keep its records in the database of a directory. -/
def IsBeside (directory : Path) : Store → Prop
  | .table s => s.path.key ≠ (directory.child TableStore.fileName).key
  | _ => True

variable {directory : Path} {t t' : Tree} {store : Store} {backend : Backend} {state : Entries}

theorem attach_beside (h : Tree.Beside directory t t')
    (hattach : attach backend state t = .ok store) (hbeside : store.IsBeside directory) :
    attach backend state t' = .ok store := by
  cases backend with
  | database =>
      rcases Steps.map_eq_ok.mp hattach with ⟨s, hs, rfl⟩
      exact Steps.map_eq_ok.mpr ⟨s, TableStore.attach_beside h hs hbeside, rfl⟩
  | file =>
      rw [attach] at hattach ⊢
      rw [Sheet.attach_beside h]
      exact hattach
  | yaml =>
      rw [attach] at hattach ⊢
      rw [Documents.attach_beside h]
      exact hattach

theorem list_beside (h : Tree.Beside directory t t') (hattach : attach backend state t = .ok store)
    (hbeside : store.IsBeside directory) (filter : Filter) :
    store.list t' filter = store.list t filter := by
  cases backend with
  | database =>
      rcases Steps.map_eq_ok.mp hattach with ⟨s, -, rfl⟩
      exact TableStore.list_beside h hbeside filter
  | file =>
      rcases Steps.map_eq_ok.mp hattach with ⟨s, hs, rfl⟩
      exact Sheet.list_beside h hs filter
  | yaml =>
      rcases Steps.map_eq_ok.mp hattach with ⟨s, -, rfl⟩
      exact Documents.list_beside h s filter

end Store

/-!
## Failed preparation
-/

namespace TableStore

variable {schema : Schema} {directory : Path} {now : Moment} {t t' : Tree}

/-- A table with the columns of the schema can be made. -/
def CanMake (schema : Schema) : Prop :=
  ∃ columns db, columnsOf schema = .ok columns ∧ Database.create {} tableName columns = .ok db

/-- Whether a table can be made depends on its columns alone. -/
theorem create_of_canMake (h : CanMake schema) {columns : List Column}
    (hcolumns : columnsOf schema = .ok columns) (db : Database) :
    ∃ made, db.create tableName columns = .ok made := by
  rcases h with ⟨columns', fresh, hcolumns', hfresh⟩
  rw [hcolumns] at hcolumns'
  cases hcolumns'
  rcases Steps.bind_eq_ok.mp hfresh with ⟨checked, hcheck, hfresh⟩
  rw [Database.create, hcheck]
  split at hfresh
  · cases hfresh
  · rename_i hnone
    dsimp only [bind, Except.bind]
    rw [if_neg hnone]
    dsimp only at hfresh ⊢
    split at hfresh
    · cases hfresh
    · exact ⟨_, rfl⟩

theorem beside_of_reach {found : Option Nat × Database}
    (h : reach (directory.child fileName) t = .ok (found, t')) : Tree.Beside directory t t' := by
  unfold reach at h
  split at h
  · cases h
    exact Tree.Beside.refl directory t
  · split at h
    · cases h
      exact Tree.Beside.refl directory t
    · cases h
  · cases h
  · rename_i hnone
    split at h
    · rename_i hwrite
      cases h
      rcases Tree.write_eq_ok hwrite with ⟨hdirectory, rfl⟩
      exact Tree.beside_put (by simp) hdirectory
    · cases h

theorem beside_of_clear {serial? : Option Nat} {db : Database}
    (h : reach (directory.child fileName) t = .ok ((serial?, db), t')) (cleared : Database) :
    Tree.Beside directory t
      (if serial?.isSome then keep (directory.child fileName) serial? cleared t' else t') := by
  have hreached := beside_of_reach h
  cases serial? with
  | none => exact hreached
  | some serial =>
      refine hreached.trans (Tree.beside_put (by simp) ?_)
      intro hdirectory
      have hbefore := hreached.isDirectory (directory.child fileName)
      rw [Tree.isDirectory_iff.mpr hdirectory] at hbefore
      have hthere := Tree.isDirectory_iff.mp hbefore.symm
      rcases reach_eq_ok h with ⟨-, -, ⟨hnone, -⟩ | ⟨serial', -, hfind⟩⟩
      · cases hnone
      · rw [hfind] at hthere
        cases hthere

theorem prepare_failed {failure : Failure}
    (h : (prepare directory schema now).run t = (.error failure, t')) :
    t' = t ∨ ¬CanMake schema ∧ Tree.Beside directory t t' := by
  rw [prepare_run] at h
  dsimp only at h
  cases hreach : reach (directory.child fileName) t with
  | error fault =>
      rw [hreach] at h
      cases h
      exact Or.inl rfl
  | ok result =>
      rcases result with ⟨⟨serial?, db⟩, reached⟩
      -- Room is made for the table before it is known whether the table can be made.
      have hcleared := beside_of_clear hreach (db.clear tableName now).2
      rw [hreach] at h
      dsimp only at h
      right
      cases hcolumns : columnsOf schema with
      | error fault =>
          rw [hcolumns] at h
          cases h
          refine ⟨?_, hcleared⟩
          rintro ⟨columns, made, hok, -⟩
          rw [hcolumns] at hok
          cases hok
      | ok columns =>
          rw [hcolumns] at h
          dsimp only at h
          cases hcreate : (db.clear tableName now).2.create tableName columns with
          | error fault =>
              rw [hcreate] at h
              cases h
              refine ⟨fun hmake => ?_, hcleared⟩
              rcases create_of_canMake hmake hcolumns (db.clear tableName now).2 with ⟨made, hmade⟩
              rw [hcreate] at hmade
              cases hmade
          | ok made =>
              rw [hcreate] at h
              cases h

end TableStore

/-- When preparing storage fails, nothing changed or room was made for a table that cannot be
made. -/
theorem Backend.prepare_failed {backend : Backend} {directory : Path} {schema : Schema}
    {options : Entries} {now : Moment} {t t' : Tree} {failure : Failure}
    (h : (backend.prepare directory schema options now).run t = (.error failure, t')) :
    t' = t ∨ backend = .database ∧ ¬TableStore.CanMake schema ∧ Tree.Beside directory t t' := by
  cases backend with
  | database => exact (TableStore.prepare_failed h).imp_right fun hmade => ⟨rfl, hmade⟩
  | yaml => exact Or.inl ((Preparation.ofChange_failed h).2)
  | file =>
      rw [Backend.prepare] at h
      split at h
      · exact Or.inl ((Preparation.ofChange_failed h).2)
      · cases h
        exact Or.inl rfl

end Roster
