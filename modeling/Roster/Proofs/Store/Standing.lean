import Roster.Proofs.Store.Mounted

/-!
# What was stored is shown

A store shows a record as it was stored, when the record is one that it can read back, whatever else
it was asked to keep before.  A file with a value that is too long cannot be read any more, and then
nothing is stored in it.
-/

namespace Roster

/-!
## One file
-/

namespace Sheet

/-- The file is there, but its content is refused. -/
def Unreadable (s : Sheet) (tree : Tree) : Prop :=
  ∃ cause, s.read tree = .error (.ok cause)

/-- The file holds a book with the fields, or is not read any more. -/
def Stands (s : Sheet) (tree : Tree) (fields : List String) : Prop :=
  (∃ b : Book, b.Sound ∧ b.fields = fields ∧ s.Holds tree b) ∨ s.Unreadable tree

variable {s : Sheet} {tree : Tree} {fields : List String}

theorem Unreadable.readOr (h : s.Unreadable tree) (refusal : Cause → Refusal) :
    ∃ cause, s.readOr tree refusal = .error (.refused (refusal cause)) := by
  rcases h with ⟨cause, hread⟩
  refine ⟨cause, ?_⟩
  rw [Sheet.readOr, hread]
  rfl

theorem Unreadable.fetch_ne_ok (h : s.Unreadable tree) (id : String) (record : Record) :
    s.fetch tree id ≠ .ok record := by
  rcases h.readOr .cannotReadFile with ⟨cause, hread⟩
  rw [Sheet.fetch, hread]
  intro heq
  split at heq
  · cases heq
  · cases heq

theorem Unreadable.insert_ne_ok (h : s.Unreadable tree) (now : Moment) (id : String)
    (record : Record) (tree' : Tree) : s.insert tree now id record ≠ .ok tree' := by
  rcases h.readOr .cannotCreate with ⟨cause, hread⟩
  intro hinsert
  rcases Steps.bind_eq_ok.mp hinsert with ⟨_, -, hinsert⟩
  rw [hread] at hinsert
  cases hinsert

theorem Unreadable.update_ne_ok (h : s.Unreadable tree) (now : Moment) (id : String)
    (changes : Record) (tree' : Tree) : s.update tree now id changes ≠ .ok tree' := by
  rcases h.readOr (.cannotUpdate id) with ⟨cause, hread⟩
  intro hupdate
  rw [Sheet.update, hread] at hupdate
  cases hupdate

theorem Unreadable.remove_ne_ok (h : s.Unreadable tree) (id : String) (tree' : Tree) :
    s.remove tree id ≠ .ok tree' := by
  rcases h.readOr (.cannotDelete id) with ⟨cause, hread⟩
  intro hremove
  rw [Sheet.remove, hread] at hremove
  cases hremove

/-- A row with a value that is too long makes the file unreadable. -/
theorem unreadable_of_long {header : List String} {records : List Record}
    (hfile : tree.find? s.path.key =
      some (.file (SheetContent.text s.format ⟨header, records⟩).toUTF8))
    (hlong : ¬∀ row ∈ header :: records.map (SheetContent.cellsOf header), Delimited.Fits row) :
    s.Unreadable tree := by
  have hread := Delimited.read_writeRows_of_long s.format.isDelimiter hlong
  refine ⟨.cellTooLong, ?_⟩
  unfold Sheet.read
  rw [Tree.read_of_find? hfile]
  simp only [Except.mapError, bind, Except.bind, Text.decodeUtf8_toUTF8, SheetContent.text,
    String.toList_ofList, hread]

theorem admits_of_fits {fields : List String} {record : Record} (hnodup : fields.Nodup)
    (hfull : Entries.keys record = fields)
    (hfits : Delimited.Fits (SheetContent.cellsOf fields record)) : Admits record := by
  intro entry hentry
  have hkey : entry.1 ∈ fields := by
    rw [← hfull]
    exact List.mem_map_of_mem hentry
  have hvalue : record.valueOf entry.1 = entry.2 := by
    rw [Record.valueOf, Entries.lookup_of_mem (hfull.symm ▸ hnodup) hentry]
    rfl
  rw [← hvalue]
  exact hfits _ (List.mem_map_of_mem hkey)

theorem unreadable_of_not_admits {header : List String} {records : List Record}
    (hfile : tree.find? s.path.key =
      some (.file (SheetContent.text s.format ⟨header, records⟩).toUTF8))
    (hnodup : header.Nodup) (hfull : ∀ record ∈ records, Entries.keys record = header)
    (hlong : ¬∀ record ∈ records, Admits record) : s.Unreadable tree := by
  refine unreadable_of_long hfile fun hfits => hlong fun record hrecord => ?_
  refine admits_of_fits hnodup (hfull record hrecord) (hfits _ ?_)
  exact List.mem_cons_of_mem _ (List.mem_map_of_mem hrecord)

theorem unreadable_put {b : Book} (hsound : b.Sound)
    (hlong : ¬∀ record ∈ b.records, Admits record) : s.Unreadable (s.put tree b) :=
  unreadable_of_not_admits (Tree.find?_put_self s.isEntryKey_path _) hsound.fields_nodup hsound.full
    hlong

/-- Whether or not what is put into the file can be read back, the file stands. -/
theorem stands_put {b b' : Book} (h : s.Holds tree b) (hfields : b'.fields = b.fields)
    (hsound : b'.Sound) : s.Stands (s.put tree b') b'.fields := by
  by_cases hadmits : ∀ record ∈ b'.records, Admits record
  · exact Or.inl ⟨b', hsound, rfl, h.put hfields hadmits⟩
  · exact Or.inr (unreadable_put hsound hadmits)

/-- A book with a new record is admitted when that is, and those of the book before. -/
theorem Holds.fetch_put {b b' : Book} (h : s.Holds tree b) (hsound : b'.Sound)
    (hfields : b'.fields = b.fields) (hadmits : ∀ record ∈ b'.records, Admits record) {id : String}
    {record : Record} (hfound : b'.find? id = some record) :
    s.fetch (s.put tree b') id = .ok record := by
  rw [(h.put hfields hadmits).fetch hsound.keyed]
  exact Book.fetch_eq_ok_iff.mpr hfound

theorem Stands.insert (h : s.Stands tree fields) {now : Moment} {id : String} {record : Record}
    {tree' : Tree} (hvalid : isUserId id = true) (hfull : Entries.keys record = fields)
    (hfree : ∀ old, s.fetch tree id ≠ .ok old)
    (hinsert : s.insert tree now id record = .ok tree') :
    s.Stands tree' fields ∧ (Admits (record.stampNew fields now id) →
      s.fetch tree' id = .ok (record.stampNew fields now id)) := by
  rcases h with ⟨b, hsound, rfl, hholds⟩ | hbroken
  · rcases Steps.bind_eq_ok.mp hinsert with ⟨⟨⟩, hnew, -⟩
    have hnone : b.find? id = none := by
      by_contra hfound
      rcases Option.ne_none_iff_exists'.mp hfound with ⟨old, hold⟩
      refine hfree old ?_
      rw [hholds.fetch hsound.keyed]
      exact Book.fetch_eq_ok_iff.mpr hold
    have hbook := Book.insert_of_free hnew hnone now
    rw [hholds.insert hsound.keyed, hbook] at hinsert
    cases hinsert
    rcases hsound.add_stampNew hfull hvalid hnone now with ⟨hnext, hadded⟩
    refine ⟨stands_put hholds rfl hnext, fun hadmits => ?_⟩
    refine hholds.fetch_put hnext rfl ?_ hadded
    intro other hother
    rcases List.mem_append.mp hother with hold | hnew
    · exact hholds.admits other hold
    · rw [List.mem_singleton.mp hnew]
      exact hadmits
  · exact absurd hinsert (hbroken.insert_ne_ok now id record tree')

theorem Stands.update (h : s.Stands tree fields) {now : Moment} {id : String}
    {changes old : Record} {tree' : Tree} (hfound : s.fetch tree id = .ok old)
    (hupdate : s.update tree now id changes = .ok tree') :
    s.Stands tree' fields ∧ (Admits (Entries.setAll old (changes.stampChanges fields now)) →
      s.fetch tree' id = .ok (Entries.setAll old (changes.stampChanges fields now))) := by
  rcases h with ⟨b, hsound, rfl, hholds⟩ | hbroken
  · rw [hholds.fetch hsound.keyed] at hfound
    have hold := Book.fetch_eq_ok_iff.mp hfound
    rw [hholds.update hsound.keyed, Book.update_of_found hold now changes] at hupdate
    cases hupdate
    have hnext := hsound.change id now changes
    refine ⟨stands_put hholds rfl hnext, fun hadmits => ?_⟩
    have hchanged := Book.find?_change hsound hold now changes
    refine hholds.fetch_put hnext rfl ?_ hchanged
    intro other hother
    rcases List.mem_map.mp hother with ⟨record, hrecord, rfl⟩
    rw [Book.changed]
    split
    · rename_i hid
      have hsame : b.find? id = some record :=
        (Book.find?_eq_some_iff hsound.ids_nodup).mpr ⟨hrecord, beq_iff_eq.mp hid⟩
      rw [hold] at hsame
      cases hsame
      exact hadmits
    · exact hholds.admits record hrecord
  · exact absurd hfound (hbroken.fetch_ne_ok id old)

theorem Stands.remove (h : s.Stands tree fields) {id : String} {old : Record} {tree' : Tree}
    (hfound : s.fetch tree id = .ok old) (hremove : s.remove tree id = .ok tree') :
    s.Stands tree' fields := by
  rcases h with ⟨b, hsound, rfl, hholds⟩ | hbroken
  · rw [hholds.fetch hsound.keyed] at hfound
    have hold := Book.fetch_eq_ok_iff.mp hfound
    rw [hholds.remove hsound.keyed, Book.remove_of_found hold] at hremove
    cases hremove
    exact stands_put hholds rfl (hsound.drop id)
  · exact absurd hfound (hbroken.fetch_ne_ok id old)

end Sheet

/-!
## Documents
-/

namespace Documents

variable {s : Documents} {tree tree' : Tree} {id : String} {now : Moment}

theorem loadOr_eq_ok_iff {refusal : Cause → Refusal} {path : Path} {record : Record} :
    s.loadOr tree id refusal = .ok (path, record) ↔
      s.path? id = some path ∧ tree.isFile path = true ∧ Documents.load tree path = .ok record := by
  rw [Documents.loadOr]
  cases s.path? id with
  | none => simp
  | some found =>
      dsimp only
      by_cases hfile : tree.isFile found = true
      · rw [if_pos hfile]
        constructor
        · intro h
          split at h
          · rename_i found hload
            cases h
            exact ⟨rfl, hfile, hload⟩
          · cases h
          · cases h
        · rintro ⟨heq, -, hload⟩
          cases heq
          rw [hload]
      · rw [if_neg hfile]
        simp only [Option.some.injEq, reduceCtorEq, false_iff, not_and]
        rintro rfl hthere
        exact absurd hthere hfile

theorem fetch_eq_ok_iff {record : Record} :
    s.fetch tree id = .ok record ↔ ∃ path, s.path? id = some path ∧ tree.isFile path = true ∧
      Documents.load tree path = .ok record := by
  rw [Documents.fetch, Steps.map_eq_ok]
  constructor
  · rintro ⟨⟨path, found⟩, hload, rfl⟩
    exact ⟨path, loadOr_eq_ok_iff.mp hload⟩
  · rintro ⟨path, hload⟩
    exact ⟨(path, record), loadOr_eq_ok_iff.mpr hload, rfl⟩

theorem isUserId_of_path? {path : Path} (h : s.path? id = some path) :
    isUserId id = true ∧ path = s.directory.child (nameOf id) := by
  by_cases hvalid : isUserId id = true
  · rw [path?_of_isUserId hvalid] at h
    exact ⟨hvalid, (Option.some.inj h).symm⟩
  · rw [path?, if_neg hvalid] at h
    cases h

theorem insert_eq_ok {record : Record} (hinsert : s.insert tree now id record = .ok tree') :
    isUserId id = true ∧ tree' = tree.put (s.directory.child (nameOf id)).key
      (.file (documentText (record.stampNew s.fields now id)).toUTF8) := by
  rcases Steps.bind_eq_ok.mp hinsert with ⟨⟨⟩, -, hinsert⟩
  cases hpath : s.path? id with
  | none =>
      rw [hpath] at hinsert
      cases hinsert
  | some path =>
      rw [hpath] at hinsert
      rcases isUserId_of_path? hpath with ⟨hvalid, rfl⟩
      exact ⟨hvalid, (Tree.create_eq_ok (Steps.mapError_eq_ok.mp hinsert)).2⟩

theorem update_eq_ok {changes old : Record} (hfound : s.fetch tree id = .ok old)
    (hupdate : s.update tree now id changes = .ok tree') :
    isUserId id = true ∧ tree' = tree.put (s.directory.child (nameOf id)).key
      (.file (documentText (Entries.setAll old (changes.stampChanges s.fields now))).toUTF8) := by
  rcases fetch_eq_ok_iff.mp hfound with ⟨path, hpath, hfile, hload⟩
  rcases Steps.bind_eq_ok.mp hupdate with ⟨loaded, hloaded, hupdate⟩
  rw [loadOr_eq_ok_iff.mpr ⟨hpath, hfile, hload⟩] at hloaded
  cases hloaded
  rcases isUserId_of_path? hpath with ⟨hvalid, rfl⟩
  exact ⟨hvalid, (Tree.write_eq_ok (Steps.mapError_eq_ok.mp hupdate)).2⟩

theorem fetch_put {record : Record} (hvalid : isUserId id = true) (hreads : ReadsBack record) :
    s.fetch (tree.put (s.directory.child (nameOf id)).key (.file (documentText record).toUTF8)) id =
      .ok record := by
  have hfind := Tree.find?_put_self (t := tree) (isEntryKey_document s.directory id)
    (.file (documentText record).toUTF8)
  exact fetch_eq_ok_iff.mpr ⟨_, path?_of_isUserId hvalid,
    Tree.isFile_of_find? hfind fun heq => (nomatch heq), load_of_find? hreads hfind⟩

theorem fetch_insert {record : Record} (hinsert : s.insert tree now id record = .ok tree')
    (hreads : ReadsBack (record.stampNew s.fields now id)) :
    s.fetch tree' id = .ok (record.stampNew s.fields now id) := by
  rcases insert_eq_ok hinsert with ⟨hvalid, rfl⟩
  exact fetch_put hvalid hreads

theorem fetch_update {changes old : Record} (hfound : s.fetch tree id = .ok old)
    (hupdate : s.update tree now id changes = .ok tree')
    (hreads : ReadsBack (Entries.setAll old (changes.stampChanges s.fields now))) :
    s.fetch tree' id = .ok (Entries.setAll old (changes.stampChanges s.fields now)) := by
  rcases update_eq_ok hfound hupdate with ⟨hvalid, rfl⟩
  exact fetch_put hvalid hreads

end Documents

/-!
## A table
-/

namespace TableStore

/-- The table holds a book with the fields. -/
def Stands (s : TableStore) (tree : Tree) (fields : List String) : Prop :=
  ∃ b : Book, b.Sound ∧ b.fields = fields ∧ s.Holds tree b

variable {s : TableStore} {tree tree' : Tree} {fields : List String} {id : String} {now : Moment}

theorem Stands.insert (h : s.Stands tree fields) {record : Record} (hvalid : isUserId id = true)
    (hfull : Entries.keys record = fields) (hfree : ∀ old, s.fetch tree id ≠ .ok old)
    (hinsert : s.insert tree now id record = .ok tree') :
    s.Stands tree' fields ∧
      s.fetch tree' id = .ok (record.stampNew fields now id) := by
  rcases h with ⟨b, hsound, rfl, hholds⟩
  rcases Steps.bind_eq_ok.mp hinsert with ⟨⟨⟩, hnew, -⟩
  have hnone : b.find? id = none := by
    by_contra hfound
    rcases Option.ne_none_iff_exists'.mp hfound with ⟨old, hold⟩
    refine hfree old ?_
    rw [hholds.fetch hsound]
    exact Book.fetch_eq_ok_iff.mpr hold
  rcases hholds.insert hsound hfull (Book.insert_of_free hnew hnone now) with
    ⟨next, hnext, hadded⟩
  rw [hnext] at hinsert
  cases hinsert
  rcases hsound.add_stampNew hfull hvalid hnone now with ⟨hsound', hfound⟩
  refine ⟨⟨_, hsound', rfl, hadded⟩, ?_⟩
  rw [hadded.fetch hsound']
  exact Book.fetch_eq_ok_iff.mpr hfound

theorem Stands.update (h : s.Stands tree fields) {changes old : Record}
    (hfound : s.fetch tree id = .ok old) (hupdate : s.update tree now id changes = .ok tree') :
    s.Stands tree' fields ∧
      s.fetch tree' id = .ok (Entries.setAll old (changes.stampChanges fields now)) := by
  rcases h with ⟨b, hsound, rfl, hholds⟩
  rw [hholds.fetch hsound] at hfound
  have hold := Book.fetch_eq_ok_iff.mp hfound
  rcases hholds.update hsound (Book.update_of_found hold now changes) with
    ⟨next, hnext, hchanged⟩
  rw [hnext] at hupdate
  cases hupdate
  have hsound' := hsound.change id now changes
  refine ⟨⟨_, hsound', rfl, hchanged⟩, ?_⟩
  rw [hchanged.fetch hsound']
  exact Book.fetch_eq_ok_iff.mpr (Book.find?_change hsound hold now changes)

theorem Stands.remove (h : s.Stands tree fields) {old : Record}
    (hfound : s.fetch tree id = .ok old) (hremove : s.remove tree id = .ok tree') :
    s.Stands tree' fields := by
  rcases h with ⟨b, hsound, rfl, hholds⟩
  rw [hholds.fetch hsound] at hfound
  have hold := Book.fetch_eq_ok_iff.mp hfound
  rcases hholds.remove hsound (Book.remove_of_found hold) with ⟨next, hnext, hdropped⟩
  rw [hnext] at hremove
  cases hremove
  exact ⟨_, hsound.drop id, rfl, hdropped⟩

end TableStore

/-!
## Any store
-/

/-- The store keeps records with the fields, as far as it can still be read. -/
def Store.Stands : Store → Tree → List String → Prop
  | .sheet s => s.Stands
  | .documents s => fun _ fields => s.fields = fields
  | .table s => s.Stands

namespace Mounted

/-- The store keeps records with the fields, as far as it can still be read. -/
def Stands (m : Mounted Store) (fields : List String) : Prop :=
  m.store.Stands m.tree fields

variable {m m' : Mounted Store} {fields : List String} {id : String} {now : Moment}

/-- A new record is shown as it was stored. -/
theorem Stands.insert (h : m.Stands fields) {record : Record} (hvalid : isUserId id = true)
    (hfull : Entries.keys record = fields) (hfree : ∀ old, RecordStore.fetch m id ≠ .ok old)
    (hinsert : RecordStore.insert m now id record = .ok m') :
    m'.store = m.store ∧ m'.Stands fields ∧ (m.store.Admits (record.stampNew fields now id) →
      RecordStore.fetch m' id = .ok (record.stampNew fields now id)) := by
  rcases Steps.map_eq_ok.mp hinsert with ⟨tree', htree, rfl⟩
  refine ⟨rfl, ?_⟩
  rcases m with ⟨store, tree⟩
  cases store with
  | sheet s => exact Sheet.Stands.insert h hvalid hfull hfree htree
  | documents s =>
      refine ⟨h, fun hreads => ?_⟩
      rw [← show s.fields = fields from h] at hreads ⊢
      exact Documents.fetch_insert htree hreads
  | table s =>
      rcases TableStore.Stands.insert h hvalid hfull hfree htree with ⟨hstands, hfetch⟩
      exact ⟨hstands, fun _ => hfetch⟩

/-- A changed record is shown with the changes. -/
theorem Stands.update (h : m.Stands fields) {changes old : Record}
    (hfound : RecordStore.fetch m id = .ok old)
    (hupdate : RecordStore.update m now id changes = .ok m') :
    m'.store = m.store ∧ m'.Stands fields ∧
      (m.store.Admits (Entries.setAll old (changes.stampChanges fields now)) →
        RecordStore.fetch m' id = .ok (Entries.setAll old (changes.stampChanges fields now))) := by
  rcases Steps.map_eq_ok.mp hupdate with ⟨tree', htree, rfl⟩
  refine ⟨rfl, ?_⟩
  rcases m with ⟨store, tree⟩
  cases store with
  | sheet s => exact Sheet.Stands.update h hfound htree
  | documents s =>
      refine ⟨h, fun hreads => ?_⟩
      rw [← show s.fields = fields from h] at hreads ⊢
      exact Documents.fetch_update hfound htree hreads
  | table s =>
      rcases TableStore.Stands.update h hfound htree with ⟨hstands, hfetch⟩
      exact ⟨hstands, fun _ => hfetch⟩

theorem Stands.remove (h : m.Stands fields) {old : Record}
    (hfound : RecordStore.fetch m id = .ok old) (hremove : RecordStore.remove m id = .ok m') :
    m'.store = m.store ∧ m'.Stands fields := by
  rcases Steps.map_eq_ok.mp hremove with ⟨tree', htree, rfl⟩
  refine ⟨rfl, ?_⟩
  rcases m with ⟨store, tree⟩
  cases store with
  | sheet s => exact Sheet.Stands.remove h hfound htree
  | documents s => exact h
  | table s => exact TableStore.Stands.remove h hfound htree

end Mounted
end Roster
