import Roster.Proofs.Registry.Home
import Roster.Proofs.Registry.Work
import Roster.Proofs.Store.Beside
import Roster.Proofs.Store.Standing
import Roster.Proofs.Store.Vacant

/-!
# Stores at home

A store at home keeps its records under one of the names that are in use there.  Whatever it is
asked for, archives and the manifest stay as they are.
-/

namespace Roster

/-- The records of a store are where a setup in a home puts them. -/
def Store.IsAt (home : Key) : Store → Prop
  | .sheet s => s.directory.key = home
  | .documents s => s.directory.key = home ++ [Documents.directoryName]
  | .table s => s.path.key = home ++ [TableStore.fileName] ∧ s.table = TableStore.tableName

namespace Tree

/-- A step from one tree with a home to another that leaves the manifest alone. -/
structure Serves (home : Key) (t t' : Tree) : Prop extends Stays home t t' where
  manifest : ∀ rest, t'.find? (home ++ Manifest.fileName :: rest) =
    t.find? (home ++ Manifest.fileName :: rest)

variable {home : Key} {t t' : Tree}

theorem IsHome.serves (h : t.IsHome home) : Serves home t t :=
  ⟨h.refl, fun _ => rfl⟩

theorem Stays.serves (h : Stays home t t') {name : String} (hname : name ∈ Store.placeNames)
    (honly : Only home name t t') : Serves home t t' :=
  ⟨h, honly _ (Store.ne_manifest hname).2.1.symm⟩

theorem create_of_eq_ok {p : Path} {octets : ByteArray} (h : t.create p octets = .ok t') :
    t.find? p.key.dropLast = some .directory ∧ t.find? p.key = none ∧
      t' = t.put p.key (.file octets) := by
  rcases create_eq_ok h with ⟨hnone, heq⟩
  unfold create at h
  rw [hnone] at h
  dsimp only at h
  split at h
  · cases h
  · rename_i hway
    exact ⟨find?_dropLast_of_wayFault (isEntryKey_of_find?_eq_none hnone).1 hway, hnone, heq⟩

theorem append_eq_ok {p : Path} {octets : ByteArray} (h : t.append p octets = .ok t') :
    t.find? p.key ≠ some .directory ∧ ∃ written, t' = t.put p.key (.file written) := by
  unfold append at h
  split at h
  · rename_i before hfind
    cases h
    exact ⟨by rw [hfind]; exact fun heq => (nomatch heq), before ++ octets, rfl⟩
  · rcases write_eq_ok h with ⟨hfile, heq⟩
    exact ⟨hfile, octets, heq⟩

end Tree

open Roster.Tree

variable {home : Key} {t t' : Tree}

/-!
## One file
-/

namespace Sheet

variable {s : Sheet}

theorem fileName_mem (format : SheetFormat) : fileName format ∈ Store.placeNames := by
  cases format <;> decide

theorem write_eq_put (hdirectory : t.isDirectory s.directory = true) {content : SheetContent}
    {refusal : Cause → Refusal} (h : s.writeOr t content refusal = .ok t') :
    t.find? s.path.key ≠ some .directory ∧ ∃ written, t' = t.put s.path.key (.file written) := by
  rcases Steps.bind_eq_ok.mp (Steps.mapError_eq_ok.mp h) with ⟨made, hmade, h⟩
  rw [Tree.makeAll_of_isDirectory hdirectory] at hmade
  cases hmade
  split at h
  · cases h
  · rcases Tree.write_eq_ok h with ⟨hfile, heq⟩
    exact ⟨hfile, _, heq⟩

theorem apply_eq_ok (ht : t.IsTidy) {write : Write} (h : (Store.sheet s).apply t write = .ok t') :
    t.find? s.directory.key = some .directory ∧ t.find? s.path.key ≠ some .directory ∧
      ∃ written, t' = t.put s.path.key (.file written) := by
  have hdirectory : ∀ {refusal : Cause → Refusal} {content : SheetContent},
      s.readOr t refusal = .ok content → t.find? s.directory.key = some .directory := by
    intro refusal content hread
    rcases exists_of_readOr hread with ⟨entry, hfind, -⟩
    rw [Sheet.path, Path.key_child (fileName_ne s.format).1] at hfind
    exact ht.rooted _ _ (fileName_ne s.format).2 (by rw [hfind]; exact fun heq => nomatch heq)
  cases write with
  | insert now id record =>
      rcases Steps.bind_eq_ok.mp h with ⟨_, -, h⟩
      rcases Steps.bind_eq_ok.mp h with ⟨content, hread, h⟩
      split at h
      · cases h
      · exact ⟨hdirectory hread, Tree.append_eq_ok (Steps.mapError_eq_ok.mp h)⟩
  | update now id changes =>
      rcases Steps.bind_eq_ok.mp h with ⟨content, hread, h⟩
      have hthere := hdirectory hread
      dsimp only at h
      split at h
      · split at h
        · cases h
        · exact ⟨hthere, write_eq_put (Tree.isDirectory_iff.mpr hthere) h⟩
      · cases h
  | remove id =>
      rcases Steps.bind_eq_ok.mp h with ⟨content, hread, h⟩
      have hthere := hdirectory hread
      dsimp only at h
      split at h
      · cases h
      · exact ⟨hthere, write_eq_put (Tree.isDirectory_iff.mpr hthere) h⟩

theorem serves (ht : t.IsHome home) (hat : (Store.sheet s).IsAt home) {write : Write}
    (h : (Store.sheet s).apply t write = .ok t') : Serves home t t' := by
  have hkey : s.path.key = home ++ [fileName s.format] := by
    rw [← show s.directory.key = home from hat, path, Path.key_child (fileName_ne s.format).1]
  rcases apply_eq_ok ht.toIsTidy h with ⟨hhome, hfile, written, rfl⟩
  rw [hkey] at hfile ⊢
  have hplace := fileName_mem s.format
  have hbase : fileName s.format ≠ TableStore.fileName := fileName_ne_database s.format
  exact (ht.write (Store.mem_liveNames hplace) hbase (hat ▸ hhome) hfile written).serves hplace
    (only_put (fileName_ne s.format).2 [] _)

end Sheet

/-!
## Documents
-/

namespace Documents

variable {s : Documents}

theorem apply_eq_ok (ht : t.IsTidy) {write : Write}
    (h : (Store.documents s).apply t write = .ok t') :
    ∃ name, name ≠ "/" ∧ t.find? s.directory.key = some .directory ∧
      t.find? (s.directory.key ++ [name]) ≠ some .directory ∧
      ((∃ written, t' = t.put (s.directory.key ++ [name]) (.file written)) ∨
        (∃ entry, t.find? (s.directory.key ++ [name]) = some entry) ∧
          t' = t.erase (s.directory.key ++ [name])) := by
  have hslash : ∀ id, nameOf id ≠ "/" := fun id => (nameOf_ne id).2
  have hfile : ∀ {id path}, s.path? id = some path → t.isFile path = true →
      path.key = s.directory.key ++ [nameOf id] ∧ t.find? s.directory.key = some .directory ∧
        ∃ entry, t.find? (s.directory.key ++ [nameOf id]) = some entry ∧ entry ≠ .directory := by
    intro id path hpath hfile
    rcases isUserId_of_path? hpath with ⟨-, rfl⟩
    rcases Tree.exists_of_isFile hfile with ⟨entry, hentry, hne⟩
    rw [key_document] at hentry ⊢
    exact ⟨rfl, ht.rooted _ _ (hslash id) (by rw [hentry]; exact fun heq => nomatch heq), entry,
      hentry, hne⟩
  cases write with
  | insert now id record =>
      rcases Steps.bind_eq_ok.mp h with ⟨_, -, h⟩
      split at h
      · cases h
      · rename_i path hpath
        rcases isUserId_of_path? hpath with ⟨-, rfl⟩
        rcases create_of_eq_ok (Steps.mapError_eq_ok.mp h) with ⟨habove, hnone, rfl⟩
        rw [key_document] at habove hnone ⊢
        rw [List.dropLast_concat] at habove
        exact ⟨nameOf id, hslash id, habove, by rw [hnone]; exact fun heq => (nomatch heq),
          Or.inl ⟨_, rfl⟩⟩
  | update now id changes =>
      rcases Steps.bind_eq_ok.mp h with ⟨⟨path, record⟩, hload, h⟩
      rcases loadOr_eq_ok_iff.mp hload with ⟨hpath, hthere, -⟩
      rcases hfile hpath hthere with ⟨hpathKey, habove, entry, hentry, hne⟩
      rcases Tree.write_eq_ok (Steps.mapError_eq_ok.mp h) with ⟨-, rfl⟩
      rw [hpathKey]
      exact ⟨nameOf id, hslash id, habove, by rw [hentry]; exact fun heq => hne (Option.some.inj heq),
        Or.inl ⟨_, rfl⟩⟩
  | remove id =>
      change s.remove t id = .ok t' at h
      unfold remove at h
      split at h
      · cases h
      · rename_i path hpath
        split at h
        · rename_i hthere
          rcases hfile hpath hthere with ⟨hpathKey, habove, entry, hentry, hne⟩
          rw [Tree.removeFile_eq_ok (Steps.mapError_eq_ok.mp h), hpathKey]
          exact ⟨nameOf id, hslash id, habove,
            by rw [hentry]; exact fun heq => hne (Option.some.inj heq),
            Or.inr ⟨⟨entry, hentry⟩, rfl⟩⟩
        · cases h

theorem serves (ht : t.IsHome home) (hat : (Store.documents s).IsAt home) {write : Write}
    (h : (Store.documents s).apply t write = .ok t') : Serves home t t' := by
  rcases apply_eq_ok ht.toIsTidy h with ⟨name, hname, hthere, hfile, hchange⟩
  rw [show s.directory.key = home ++ [directoryName] from hat] at hthere hfile hchange
  rw [List.append_assoc] at hfile hchange
  rcases hchange with ⟨written, rfl⟩ | ⟨⟨entry, hentry⟩, rfl⟩
  · exact (ht.writeDocument hname hthere hfile written).serves (by decide)
      (only_put directoryName_ne.2 [name] _)
  · cases entry with
    | directory => exact absurd hentry hfile
    | database serial db => exact absurd hentry (ht.documents name serial db)
    | file octets =>
        exact (ht.eraseDocument hentry).serves (by decide) (only_erase directoryName_ne.2 [name])

end Documents

/-!
## A table
-/

namespace Database

variable {db db' : Database} {name id : String} {cells : List (String × String)}

/-- What a statement on a table makes of a database that has it. -/
def Changes (name : String) (db db' : Database) : Prop :=
  db.table? name ≠ none ∧ ∃ f, db' = db.update name f

theorem table?_ne_none {table : Table} (h : db.table name = .ok table) : db.table? name ≠ none := by
  rw [table?_of_table h]
  exact Option.some_ne_none table

theorem changes_insert (h : db.insert name cells = .ok db') : Changes name db db' := by
  rcases Steps.bind_eq_ok.mp h with ⟨_, -, h⟩
  rcases Steps.bind_eq_ok.mp h with ⟨table, htable, h⟩
  refine ⟨table?_ne_none htable, ?_⟩
  split at h
  · cases h
  · dsimp only at h
    split at h
    · cases h
    · cases h
    · cases h
      exact ⟨_, rfl⟩

theorem changes_updateById {count : Nat} (h : db.updateById name id cells = .ok (count, db')) :
    Changes name db db' := by
  rcases Steps.bind_eq_ok.mp h with ⟨_, -, h⟩
  rcases Steps.bind_eq_ok.mp h with ⟨table, htable, h⟩
  refine ⟨table?_ne_none htable, ?_⟩
  split at h
  · cases h
  · rcases Steps.bind_eq_ok.mp h with ⟨_, -, h⟩
    cases h
    exact ⟨_, rfl⟩

theorem changes_deleteById {count : Nat} (h : db.deleteById name id = .ok (count, db')) :
    Changes name db db' := by
  rcases Steps.bind_eq_ok.mp h with ⟨table, htable, h⟩
  rcases Steps.bind_eq_ok.mp h with ⟨_, -, h⟩
  cases h
  exact ⟨table?_ne_none htable, _, rfl⟩

end Database

namespace TableStore

variable {s : TableStore}

theorem change_eq_ok {α : Type} {ask : Database → Except QueryFault (α × Database)}
    {refusal : QueryFault → Refusal} {a : α}
    (hask : ∀ {db a db'}, ask db = .ok (a, db') → Database.Changes s.table db db')
    (h : s.change t ask refusal = .ok (a, t')) :
    ∃ serial db f, t.find? s.path.key = some (.database serial db) ∧
      t' = t.put s.path.key (.database serial (db.update s.table f)) := by
  unfold change at h
  split at h
  · cases h
  · have h := Steps.mapError_eq_ok.mp h
    unfold access at h
    split at h
    · rename_i serial db haccess
      rcases Steps.bind_eq_ok.mp h with ⟨⟨b, db'⟩, hasked, h⟩
      cases h
      rcases hask hasked with ⟨hthere, f, rfl⟩
      split at haccess
      · cases haccess
      · split at haccess
        · rename_i hfind
          cases haccess
          exact ⟨serial, db, f, hfind, rfl⟩
        · split at haccess
          · cases haccess
            exact absurd rfl hthere
          · cases haccess
        · cases haccess
    · split at h
      · cases h
      · cases h
    · cases h

theorem apply_eq_ok {write : Write} (h : (Store.table s).apply t write = .ok t') :
    ∃ serial db f, t.find? s.path.key = some (.database serial db) ∧
      t' = t.put s.path.key (.database serial (db.update s.table f)) := by
  cases write with
  | insert now id record =>
      rcases Steps.bind_eq_ok.mp h with ⟨_, -, h⟩
      rcases Steps.bind_eq_ok.mp h with ⟨⟨_, tree⟩, hchange, h⟩
      cases h
      refine change_eq_ok (fun hask => ?_) hchange
      rcases Steps.map_eq_ok.mp hask with ⟨db', hinsert, heq⟩
      cases heq
      exact Database.changes_insert hinsert
  | update now id changes =>
      rcases Steps.bind_eq_ok.mp h with ⟨⟨count, tree⟩, hchange, h⟩
      dsimp only at h
      split at h
      · cases h
      · cases h
        exact change_eq_ok Database.changes_updateById hchange
  | remove id =>
      rcases Steps.bind_eq_ok.mp h with ⟨⟨count, tree⟩, hchange, h⟩
      dsimp only at h
      split at h
      · cases h
      · cases h
        exact change_eq_ok Database.changes_deleteById hchange

theorem serves (ht : t.IsHome home) (hat : (Store.table s).IsAt home) {write : Write}
    (h : (Store.table s).apply t write = .ok t') : Serves home t t' := by
  rcases apply_eq_ok h with ⟨serial, db, f, hfind, rfl⟩
  rw [hat.1] at hfind ⊢
  have hslash : fileName ≠ "/" := by decide
  have hplain := ht.plain serial db hfind
  have hhome := ht.rooted _ _ hslash (by rw [hfind]; exact fun heq => nomatch heq)
  have hstays := ht.putDatabase hhome (by rw [hfind]; exact fun heq => nomatch heq)
    (ht.present _ serial db hfind) (le_refl _) (hplain.update s.table f)
    (by
      rintro name hname table ⟨found, other, hother, hmem⟩
      rw [hfind] at hother
      cases hother
      rw [hat.2]
      exact hplain.mem_update foldAscii_tableName hname f hmem)
  exact hstays.serves (by decide) (only_put hslash [] _)

end TableStore

/-!
## Any store
-/

/-- What a store at home is asked to change leaves archives and the manifest as they are. -/
theorem Store.serves_of_apply {store : Store} (ht : t.IsHome home) (hat : store.IsAt home)
    {write : Write} (h : store.apply t write = .ok t') : Serves home t t' := by
  cases store with
  | sheet s => exact Sheet.serves ht hat h
  | documents s => exact Documents.serves ht hat h
  | table s => exact TableStore.serves ht hat h

/-- A request changes the tree as the store is asked to, or not at all. -/
theorem Registry.answer_eq (r : Registry) (store : Store) (t : Tree) (now : Moment)
    (request : Request) :
    (r.answer (Mounted.mk store t) now request).2 = ⟨store, t⟩ ∨
      ∃ write t', store.apply t write = .ok t' ∧
        (r.answer (Mounted.mk store t) now request).2 = ⟨store, t'⟩ := by
  have hdoes := does_answer r (Mounted.mk store t) now request
  generalize r.answer (Mounted.mk store t) now request = result at hdoes
  cases hdoes with
  | reads reply _ => exact Or.inl rfl
  | refuses reply _ => exact Or.inl rfl
  | registers _ _ _ _ _ hinsert =>
      rcases Steps.map_eq_ok.mp hinsert with ⟨t', hchange, rfl⟩
      exact Or.inr ⟨.insert now _ _, t', hchange, rfl⟩
  | updates _ _ _ hupdate =>
      rcases Steps.map_eq_ok.mp hupdate with ⟨t', hchange, rfl⟩
      exact Or.inr ⟨.update now _ _, t', hchange, rfl⟩
  | deletes _ _ hremove =>
      rcases Steps.map_eq_ok.mp hremove with ⟨t', hchange, rfl⟩
      exact Or.inr ⟨.remove _, t', hchange, rfl⟩

/-- A request to a registry whose store is at home leaves archives and the manifest as they are. -/
theorem Registry.serves_of_answer (r : Registry) {store : Store} (ht : t.IsHome home)
    (hat : store.IsAt home) (now : Moment) (request : Request) :
    Serves home t (r.answer (Mounted.mk store t) now request).2.tree := by
  rcases r.answer_eq store t now request with heq | ⟨write, t', happly, heq⟩
  · rw [heq]
    exact ht.serves
  · rw [heq]
    exact Store.serves_of_apply ht hat happly

/-!
## Stores that are opened
-/

theorem Documents.eq_of_attach_stateIn {parent : Path} {fields : List String} {s : Documents}
    (hplain : parent.IsPlain) (h : attach (stateIn parent fields) t = .ok s) :
    s.directory = parent.child directoryName := by
  have hchild := hplain.child isPart_directoryName
  have hrecords : State.given? (stateIn parent fields) "records_dir" =
      some (.str (parent.child directoryName).text) :=
    State.given?_of_lookup rfl hchild.text_ne_empty
  rcases Steps.bind_eq_ok.mp h with ⟨found, hfound, h⟩
  rw [directoryOf, hrecords] at hfound
  cases hfound
  dsimp only at h
  rcases Steps.bind_eq_ok.mp h with ⟨path, hpath, h⟩
  rw [hchild.ofValue_text] at hpath
  cases hpath
  cases hthere : t.isDirectory (parent.child directoryName) with
  | false =>
      rw [hthere] at h
      cases h
  | true =>
      rw [hthere] at h
      cases hfields : State.given? (stateIn parent fields) "fields" with
      | none =>
          rw [hfields] at h
          cases h
      | some listed =>
          rw [hfields] at h
          rcases Steps.bind_eq_ok.mp h with ⟨items, -, h⟩
          cases h
          rfl

theorem TableStore.eq_of_attach_stateIn {directory : Path} {s : TableStore}
    (hplain : directory.IsPlain) (h : attach (stateIn directory) t = .ok s) :
    s.path = directory.child fileName ∧ s.table = tableName := by
  have hchild := hplain.child isPart_fileName
  have hnamed : State.given? (stateIn directory) "db_full_path" =
      some (.str (directory.child fileName).text) :=
    State.given?_of_lookup rfl hchild.text_ne_empty
  have htable : State.given? (stateIn directory) "table_name" = some (.str tableName) :=
    State.given?_of_lookup rfl (by decide)
  rcases Steps.bind_eq_ok.mp h with ⟨path, hpath, h⟩
  rw [fileOf, hnamed] at hpath
  dsimp only at hpath
  rw [hchild.ofValue_text] at hpath
  cases hpath
  dsimp only at h
  rw [htable] at h
  split at h
  · cases h
  · split at h
    · cases h
    · split at h
      · cases h
        exact ⟨rfl, rfl⟩
      · cases h

/-- What is opened on storage that was prepared is at home, whatever became of the storage. -/
theorem Backend.isAt_of_attach {backend : Backend} {text : String} {schema : Schema}
    {options : Entries} {now : Moment} {prepared : Prepared} {tree tree' : Tree}
    (h : (backend.prepare (.ofText text) schema options now).run tree = (.ok prepared, tree'))
    {store : Store} (hattach : Store.attach backend prepared.state t = .ok store) :
    store.IsAt (Path.ofText text).key := by
  have hplain := Path.isPlain_ofText text
  cases backend with
  | file =>
      rcases Sheet.holds_of_prepare h with ⟨s, hplace, -, hstate, -, -⟩
      rcases Steps.map_eq_ok.mp hattach with ⟨opened, hopened, rfl⟩
      rw [hstate] at hopened
      rw [Sheet.eq_of_attach_state (hplace ▸ hplain) hopened]
      exact congrArg Path.key hplace
  | yaml =>
      rcases Steps.bind_eq_ok.mp (Preparation.run_ofChange_eq_ok.mp h) with ⟨put, -, hput⟩
      cases hput
      rcases Steps.map_eq_ok.mp hattach with ⟨opened, hopened, rfl⟩
      exact (congrArg Path.key (Documents.eq_of_attach_stateIn hplain hopened)).trans
        (Path.key_child Documents.directoryName_ne.1 _)
  | database =>
      rcases TableStore.prepare_eq_ok h with ⟨_, _, _, _, _, -, -, -, rfl, -⟩
      rcases Steps.map_eq_ok.mp hattach with ⟨opened, hopened, rfl⟩
      rcases TableStore.eq_of_attach_stateIn hplain hopened with ⟨hpath, htable⟩
      exact ⟨(congrArg Path.key hpath).trans (TableStore.key_file _), htable⟩

theorem Store.IsAt.place {store : Store} (h : store.IsAt home) :
    ∃ name ∈ Store.placeNames, store.place.key = home ++ [name] := by
  cases store with
  | sheet s =>
      refine ⟨_, Sheet.fileName_mem s.format, ?_⟩
      rw [← show s.directory.key = home from h]
      exact Path.key_child (Sheet.fileName_ne s.format).1 s.directory
  | documents s => exact ⟨_, by decide, h⟩
  | table s => exact ⟨_, by decide, h.1⟩

theorem Store.backend_of_attach {backend : Backend} {state : Entries} {store : Store}
    (h : Store.attach backend state t = .ok store) : store.backend = backend := by
  cases backend with
  | database =>
      rcases Steps.map_eq_ok.mp h with ⟨s, -, rfl⟩
      rfl
  | file =>
      rcases Steps.map_eq_ok.mp h with ⟨s, -, rfl⟩
      rfl
  | yaml =>
      rcases Steps.map_eq_ok.mp h with ⟨s, -, rfl⟩
      rfl

theorem Store.IsVacant.of_same {store : Store} {fields : List String} (h : store.IsVacant t fields)
    (hat : store.IsAt home)
    (hsame : ∀ name ∈ Store.placeNames, ∀ rest,
      t'.find? (home ++ name :: rest) = t.find? (home ++ name :: rest))
    (hremoved : t'.removed = t.removed) : store.IsVacant t' fields := by
  cases store with
  | sheet s =>
      have hkey : s.path.key = home ++ [Sheet.fileName s.format] := by
        rw [← show s.directory.key = home from hat, Sheet.path,
          Path.key_child (Sheet.fileName_ne s.format).1]
      have hthere : t.find? s.path.key = _ := h
      show t'.find? s.path.key = _
      rw [← hthere, hkey]
      exact hsame _ (Sheet.fileName_mem s.format) []
  | documents s =>
      have hkey : s.directory.key = home ++ [Documents.directoryName] := hat
      intro name hname
      have hnone : t.find? (s.directory.key ++ [name]) = none := h name hname
      rw [← hnone, hkey, List.append_assoc]
      exact hsame _ (by decide) [name]
  | table s =>
      refine ⟨h.opened, by rw [hremoved]; exact h.present, ?_⟩
      rcases h.table with ⟨db, table, hfind, htable⟩
      refine ⟨db, table, ?_, htable⟩
      rw [← hfind, hat.1]
      exact hsame _ (by decide) []

end Roster
