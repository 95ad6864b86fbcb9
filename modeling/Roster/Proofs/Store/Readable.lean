import Roster.Proofs.Store.Texts

/-!
# What can be read after a change

A store does not ask whether it can read again what it writes: a row may get a cell that is too
long, and a document a key that is not recognised.  Where neither is the case, whatever could be
read before a change can be read after it.
-/

namespace Roster

/-!
## What a store can read
-/

/-- The store can read the record again, though not always as it was: no cell is too long, and the
names of the fields are recognised as keys. -/
def Store.CanShow : Store → Record → Prop
  | .sheet _ => Sheet.Admits
  | .documents _ => fun record => ∀ name ∈ Entries.keys record, Yaml.KeyFits name
  | .table _ => fun _ => True

theorem Store.exists_shows {store : Store} {record : Record} (hne : record ≠ [])
    (h : store.CanShow record) : ∃ shown, store.Shows record shown := by
  cases store with
  | sheet s => exact ⟨record, h, rfl⟩
  | documents s =>
      exact ⟨_, Yaml.readTexts_render hne fun entry hentry => h entry.1 (List.mem_map_of_mem hentry)⟩
  | table s => exact ⟨record, rfl⟩

theorem Sheet.Unreadable.list_ne_ok {s : Sheet} {tree : Tree} (h : s.Unreadable tree)
    (filter : Filter) (records : List Record) : s.list tree filter ≠ .ok records := by
  rcases h.readOr .cannotReadFile with ⟨cause, hread⟩
  intro hlist
  rcases Steps.bind_eq_ok.mp hlist with ⟨content, hcontent, -⟩
  rw [hread] at hcontent
  cases hcontent

/-!
## Documents
-/

namespace Documents

variable {s : Documents} {tree tree' : Tree} {directory : Path} {id : String}

/-- All documents are gone through, and those that can be read are kept. -/
theorem readable_eq_ok_iff {names : List String} {records : List Record} :
    readable directory tree names = .ok records ↔
      (∀ name ∈ names, ∀ fault, load tree (directory.child name) ≠ .error (.error fault)) ∧
        records = names.filterMap fun name => (load tree (directory.child name)).toOption := by
  induction names generalizing records with
  | nil => simp [readable, eq_comm]
  | cons name rest ih =>
      rw [readable, List.forall_mem_cons, List.filterMap_cons]
      cases hload : load tree (directory.child name) with
      | ok record =>
          rw [Steps.map_eq_ok]
          simp only [ih, reduceCtorEq, ne_eq, not_false_eq_true, implies_true, true_and,
            Except.toOption]
          constructor
          · rintro ⟨others, ⟨hall, rfl⟩, rfl⟩
            exact ⟨hall, rfl⟩
          · rintro ⟨hall, rfl⟩
            exact ⟨_, ⟨hall, rfl⟩, rfl⟩
      | error failure =>
          cases failure with
          | ok cause => simp [ih, Except.toOption]
          | error fault => simp

theorem name_of_isDocumentName {name : String} (h : isDocumentName name = true) :
    name ≠ ".." ∧ name ≠ "/" := by
  refine ⟨?_, ?_⟩
  · rintro rfl
    revert h
    decide
  · rintro rfl
    revert h
    decide

theorem mem_documentNames_iff {name : String} :
    name ∈ documentNames directory tree ↔
      isDocumentName name = true ∧ tree.find? (directory.child name).key ≠ none := by
  rw [documentNames, List.mem_mergeSort, List.mem_filter, and_comm]
  refine and_congr_right fun hname => ?_
  rcases name_of_isDocumentName hname with ⟨hparent, hroot⟩
  rw [Path.key_child hparent, Tree.mem_names_iff hroot]

theorem load_congr {path : Path} (hfind : tree'.find? path.key = tree.find? path.key)
    (hthere : tree.find? path.key ≠ none) : load tree' path = load tree path := by
  rw [load, load, Tree.read, Tree.read, hfind]
  cases hentry : tree.find? path.key with
  | none => exact absurd hentry hthere
  | some entry => cases entry <;> rfl

theorem isFile_of_load {path : Path} {record : Record} (h : load tree path = .ok record) :
    tree.isFile path = true := by
  rcases Steps.bind_eq_ok.mp h with ⟨octets, hread, -⟩
  rw [Steps.mapError_eq_ok, Tree.read] at hread
  rw [Tree.isFile]
  cases hentry : tree.find? path.key with
  | none =>
      rw [hentry] at hread
      cases hread
  | some entry =>
      rw [hentry] at hread
      cases entry with
      | directory => cases hread
      | file octets => rfl
      | database serial db => rfl

/-- After a change of one document that can be read, the others are listed as before. -/
theorem list_of_beside
    (hbeside : ∀ key, key ≠ (s.directory.child (nameOf id)).key → tree'.find? key = tree.find? key)
    (hshown : ∃ shown, s.fetch tree' id = .ok shown) {filter : Filter} {records : List Record}
    (hlist : s.list tree filter = .ok records) :
    ∃ records', s.list tree' filter = .ok records' ∧
      ∀ user ∈ records, user ∈ records' ∨ s.fetch tree id = .ok user := by
  rcases hshown with ⟨shown, hshown⟩
  rcases fetch_eq_ok_iff.mp hshown with ⟨path, hpath, -, hload⟩
  rcases isUserId_of_path? hpath with ⟨hvalid, rfl⟩
  rcases Steps.bind_eq_ok.mp hlist with ⟨before, hbefore, hrecords⟩
  cases hrecords
  rcases readable_eq_ok_iff.mp hbefore with ⟨hsound, rfl⟩
  have hothers : ∀ name, isDocumentName name = true → name ≠ nameOf id →
      tree'.find? (s.directory.child name).key = tree.find? (s.directory.child name).key := by
    intro name hname hne
    refine hbeside _ fun heq => hne ?_
    rw [key_document, Path.key_child (name_of_isDocumentName hname).1,
      List.append_singleton_inj] at heq
    exact heq.2
  -- No document breaks the listing off: the one that changed can be read, and the others are as
  -- before.
  have hafter : ∀ name ∈ documentNames s.directory tree', ∀ fault,
      load tree' (s.directory.child name) ≠ .error (.error fault) := by
    intro name hname fault
    rcases mem_documentNames_iff.mp hname with ⟨hdocument, hthere⟩
    by_cases hid : name = nameOf id
    · rw [hid, hload]
      exact nofun
    · rw [hothers name hdocument hid] at hthere
      rw [load_congr (hothers name hdocument hid) hthere]
      exact hsound name (mem_documentNames_iff.mpr ⟨hdocument, hthere⟩) fault
  refine ⟨_, Steps.bind_eq_ok.mpr ⟨_, readable_eq_ok_iff.mpr ⟨hafter, rfl⟩, rfl⟩, fun user huser => ?_⟩
  rw [Record.sortById, List.mem_mergeSort, List.mem_filter, List.mem_filterMap] at huser ⊢
  rcases huser with ⟨⟨name, hname, huser⟩, hselects⟩
  rcases mem_documentNames_iff.mp hname with ⟨hdocument, hthere⟩
  have hload := Steps.eq_ok_of_toOption huser
  by_cases hid : name = nameOf id
  · rw [hid] at hload
    exact Or.inr (fetch_eq_ok_iff.mpr ⟨_, path?_of_isUserId hvalid, isFile_of_load hload, hload⟩)
  · refine Or.inl ⟨⟨name, ?_, ?_⟩, hselects⟩
    · exact mem_documentNames_iff.mpr ⟨hdocument, hothers name hdocument hid ▸ hthere⟩
    · rw [load_congr (hothers name hdocument hid) hthere, hload]
      rfl

end Documents

/-!
## Any store
-/

namespace Mounted

variable {m m' : Mounted Store} {fields : List String} {id : String} {record : Record}

theorem list_of_holds {b b' : Book} (hwrote : m.Wrote id record m') (h : m.Holds b)
    (hsound : b.Sound) (hfields : b.fields = fields) (h' : m'.Holds b') (hsound' : b'.Sound)
    (hfields' : b'.fields = fields) (hshown : ∃ shown, m.store.Shows record shown) {filter : Filter}
    (hover : filter.IsOver fields) (htakes : m.store.Takes filter) {records : List Record}
    (hlist : RecordStore.list m filter = .ok records) :
    ∃ records', RecordStore.list m' filter = .ok records' ∧
      ∀ user ∈ records, user ∈ records' ∨ RecordStore.fetch m id = .ok user := by
  have hbefore := (h.list hsound (hfields.symm ▸ hover) htakes).symm.trans hlist
  have hafter := h'.list hsound' (hfields'.symm ▸ hover) (hwrote.store.symm ▸ htakes)
  cases hbefore
  refine ⟨_, hafter, fun user huser => ?_⟩
  rw [Record.sortById, List.mem_mergeSort, List.mem_filter] at huser ⊢
  have hfound := (Book.find?_eq_some_iff hsound.ids_nodup).mpr ⟨huser.1, rfl⟩
  have hfetch := (h.fetch hsound user.id).trans (Book.fetch_eq_ok_iff.mpr hfound)
  by_cases hid : user.id = id
  · exact Or.inr (hid ▸ hfetch)
  · have hnext := hwrote.after hshown user.id hid user hfetch
    rw [h'.fetch hsound', Book.fetch_eq_ok_iff] at hnext
    exact Or.inl ⟨List.mem_of_find?_eq_some hnext, huser.2⟩

/-- After a change of one record, the others are listed as before. -/
theorem Wrote.list (hwrote : m.Wrote id record m') (h : m.Stands fields) (h' : m'.Stands fields)
    (hshown : ∃ shown, m.store.Shows record shown) {filter : Filter} (hover : filter.IsOver fields)
    (htakes : m.store.Takes filter) {records : List Record}
    (hlist : RecordStore.list m filter = .ok records) :
    ∃ records', RecordStore.list m' filter = .ok records' ∧
      ∀ user ∈ records, user ∈ records' ∨ RecordStore.fetch m id = .ok user := by
  have hnext : ∃ shown, RecordStore.fetch m' id = .ok shown :=
    hshown.imp fun shown hshown => (hwrote.shown shown).mpr hshown
  rcases m with ⟨store, tree⟩
  rcases m' with ⟨store', tree'⟩
  obtain rfl : store' = store := hwrote.store
  cases store' with
  | sheet s =>
      rcases h with ⟨b, hsound, hfields, hholds⟩ | hlost
      · rcases h' with ⟨b', hsound', hfields', hholds'⟩ | hlost'
        · exact list_of_holds hwrote hholds hsound hfields hholds' hsound' hfields' hshown hover htakes
            hlist
        · rcases hnext with ⟨shown, hfetch⟩
          exact absurd hfetch (hlost'.fetch_ne_ok id shown)
      · exact absurd hlist (hlost.list_ne_ok filter records)
  | documents s => exact Documents.list_of_beside (hwrote.beside s rfl) hnext hlist
  | table s =>
      rcases h with ⟨b, hsound, hfields, hholds⟩
      rcases h' with ⟨b', hsound', hfields', hholds'⟩
      exact list_of_holds hwrote hholds hsound hfields hholds' hsound' hfields' hshown hover htakes hlist

end Mounted
end Roster
