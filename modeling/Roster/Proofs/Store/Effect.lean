import Roster.Proofs.Store.Standing

/-!
# What a change does to what is shown

A store that writes the record of one user shows that record afterwards, as far as it can be read,
and every other record that it shows was shown before.  The others are still shown, unless what was
written makes the whole store unreadable.
-/

namespace Roster

/-- What is read when a record was written: the record itself, or none when a cell is too long; of a
document whatever its text says. -/
def Store.Shows : Store → Record → Record → Prop
  | .sheet _ => fun written shown => Sheet.Admits written ∧ shown = written
  | .documents _ => fun written shown =>
      Yaml.readTexts (Documents.documentText written).toUTF8 = .ok (some shown)
  | .table _ => fun written shown => shown = written

namespace Mounted

/-- From one store to the next, the record of one user was written. -/
structure Wrote (m : Mounted Store) (id : String) (record : Record) (m' : Mounted Store) :
    Prop where
  store : m'.store = m.store
  shown : ∀ shown, RecordStore.fetch m' id = .ok shown ↔ m.store.Shows record shown
  before : ∀ other ≠ id, ∀ shown, RecordStore.fetch m' other = .ok shown →
    RecordStore.fetch m other = .ok shown
  after : (∃ shown, m.store.Shows record shown) → ∀ other ≠ id, ∀ shown,
    RecordStore.fetch m other = .ok shown → RecordStore.fetch m' other = .ok shown
  beside : ∀ s, m.store = .documents s → ∀ key,
    key ≠ (s.directory.child (Documents.nameOf id)).key → m'.tree.find? key = m.tree.find? key

/-- From one store to the next, the record of one user was taken away. -/
structure Dropped (m : Mounted Store) (id : String) (m' : Mounted Store) : Prop where
  store : m'.store = m.store
  shown : ∀ other shown, RecordStore.fetch m' other = .ok shown ↔
    other ≠ id ∧ RecordStore.fetch m other = .ok shown

end Mounted

/-!
## One file
-/

namespace Sheet

variable {s : Sheet} {tree : Tree} {b b' : Book} {id : String} {record : Record}

theorem fetch_put_iff (h : s.Holds tree b) (hfields : b'.fields = b.fields) (hsound : b'.Sound)
    (other : String) (shown : Record) :
    s.fetch (s.put tree b') other = .ok shown ↔
      (∀ record ∈ b'.records, Admits record) ∧ b'.find? other = some shown := by
  by_cases hadmits : ∀ record ∈ b'.records, Admits record
  · rw [(h.put hfields hadmits).fetch hsound.keyed, Book.fetch_eq_ok_iff]
    exact (and_iff_right hadmits).symm
  · constructor
    · exact fun hfetch => absurd hfetch ((unreadable_put hsound hadmits).fetch_ne_ok other shown)
    · exact fun hall => absurd hall.1 hadmits

theorem wrote_put (h : s.Holds tree b) (hsound : b.Sound) (hwrote : b.Wrote id record b') :
    Mounted.Wrote ⟨.sheet s, tree⟩ id record ⟨.sheet s, s.put tree b'⟩ := by
  have hfetch : ∀ {other : String} {shown : Record},
      RecordStore.fetch (Mounted.mk (Store.sheet s) (s.put tree b')) other = .ok shown ↔
        Admits record ∧ (if other = id then some record else b.find? other) = some shown := by
    intro other shown
    rw [← hwrote.find?, ← hwrote.forall_iff h.admits]
    exact fetch_put_iff h hwrote.fields hwrote.sound _ _
  have hold : ∀ {other : String} {shown : Record},
      RecordStore.fetch (Mounted.mk (Store.sheet s) tree) other = .ok shown ↔
        b.find? other = some shown := by
    intro other shown
    rw [← Book.fetch_eq_ok_iff, ← h.fetch hsound.keyed]
    rfl
  refine ⟨rfl, fun shown => ?_, fun other hother shown => ?_, ?_, fun _ hstore => ?_⟩
  · rw [hfetch, if_pos rfl, Option.some_inj]
    exact and_congr_right fun _ => eq_comm
  · rw [hfetch, if_neg hother, hold]
    exact And.right
  · rintro ⟨_, hadmits, -⟩ other hother shown
    rw [hfetch, if_neg hother, hold]
    exact fun hfound => ⟨hadmits, hfound⟩
  · cases hstore

theorem dropped_put (h : s.Holds tree b) (hsound : b.Sound) :
    Mounted.Dropped ⟨.sheet s, tree⟩ id ⟨.sheet s, s.put tree (b.drop id)⟩ := by
  refine ⟨rfl, fun other shown => ?_⟩
  have hadmits : ∀ record ∈ (b.drop id).records, Admits record :=
    fun record hrecord => h.admits record (List.mem_of_mem_filter hrecord)
  have hfields : (b.drop id).fields = b.fields := rfl
  have hnew := fetch_put_iff h hfields (hsound.drop id) other shown
  have hold : s.fetch tree other = .ok shown ↔ b.find? other = some shown := by
    rw [h.fetch hsound.keyed, Book.fetch_eq_ok_iff]
  refine hnew.trans (Iff.trans ?_ (and_congr_right fun _ => hold.symm))
  rw [Book.find?_drop]
  by_cases hother : other = id
  · simp [hother]
  · simpa [hother] using fun _ => hadmits

end Sheet

/-!
## A table
-/

namespace TableStore

variable {s : TableStore} {tree tree' : Tree} {b b' : Book} {id : String} {record : Record}

theorem wrote_of_holds (h : s.Holds tree b) (hsound : b.Sound) (h' : s.Holds tree' b')
    (hwrote : b.Wrote id record b') :
    Mounted.Wrote ⟨.table s, tree⟩ id record ⟨.table s, tree'⟩ := by
  have hfetch : ∀ {other : String} {shown : Record},
      RecordStore.fetch (Mounted.mk (Store.table s) tree') other = .ok shown ↔
        (if other = id then some record else b.find? other) = some shown := by
    intro other shown
    rw [← hwrote.find?, ← Book.fetch_eq_ok_iff, ← h'.fetch hwrote.sound]
    rfl
  have hold : ∀ {other : String} {shown : Record},
      RecordStore.fetch (Mounted.mk (Store.table s) tree) other = .ok shown ↔
        b.find? other = some shown := by
    intro other shown
    rw [← Book.fetch_eq_ok_iff, ← h.fetch hsound]
    rfl
  refine ⟨rfl, fun shown => ?_, fun other hother shown => ?_, fun _ other hother shown => ?_,
    fun _ hstore => ?_⟩
  · rw [hfetch, if_pos rfl, Option.some_inj]
    exact eq_comm
  · rw [hfetch, if_neg hother, hold]
    exact fun hfound => hfound
  · rw [hfetch, if_neg hother, hold]
    exact fun hfound => hfound
  · cases hstore

theorem dropped_of_holds (h : s.Holds tree b) (hsound : b.Sound) (h' : s.Holds tree' (b.drop id)) :
    Mounted.Dropped ⟨.table s, tree⟩ id ⟨.table s, tree'⟩ := by
  refine ⟨rfl, fun other shown => ?_⟩
  have hnew : s.fetch tree' other = .ok shown ↔ (b.drop id).find? other = some shown := by
    rw [h'.fetch (hsound.drop id), Book.fetch_eq_ok_iff]
  have hold : s.fetch tree other = .ok shown ↔ b.find? other = some shown := by
    rw [h.fetch hsound, Book.fetch_eq_ok_iff]
  refine hnew.trans (Iff.trans ?_ (and_congr_right fun _ => hold.symm))
  rw [Book.find?_drop]
  by_cases hother : other = id
  · simp [hother]
  · simp [hother]

end TableStore

/-!
## Documents
-/

namespace Documents

variable {s : Documents} {tree tree' : Tree} {id : String} {record : Record}

theorem fetch_eq_ok_congr {path : Path} {other : String} {shown : Record}
    (hpath : s.path? other = some path) (hfind : tree.find? path.key = tree'.find? path.key) :
    s.fetch tree other = .ok shown ↔ s.fetch tree' other = .ok shown := by
  have hfile : tree.isFile path = tree'.isFile path := by
    rw [Tree.isFile, Tree.isFile, hfind]
  have hload : tree'.isFile path = true → load tree path = load tree' path := by
    intro hthere
    rw [Tree.isFile] at hthere
    rw [load, load, Tree.read, Tree.read, hfind]
    cases hentry : tree'.find? path.key with
    | none =>
        rw [hentry] at hthere
        cases hthere
    | some entry => cases entry <;> rfl
  simp only [fetch_eq_ok_iff, hpath, Option.some.injEq, exists_eq_left', hfile]
  refine and_congr_right fun hthere => ?_
  rw [hload hthere]

theorem fetch_ne_ok_of_path? {other : String} (hpath : s.path? other = none) (shown : Record) :
    s.fetch tree other ≠ .ok shown := by
  intro hfetch
  rcases fetch_eq_ok_iff.mp hfetch with ⟨path, hsome, -⟩
  rw [hpath] at hsome
  cases hsome

/-- Trees that differ in one document show the same others. -/
theorem fetch_eq_ok_congr_of_ne (hsame : ∀ key, key ≠ (s.directory.child (nameOf id)).key →
    tree.find? key = tree'.find? key) {other : String} (hother : other ≠ id) (shown : Record) :
    s.fetch tree other = .ok shown ↔ s.fetch tree' other = .ok shown := by
  by_cases hname : isUserId other = true
  · exact fetch_eq_ok_congr (path?_of_isUserId hname)
      (hsame _ fun heq => hother (key_document_inj heq))
  · have hnone : s.path? other = none := if_neg hname
    exact iff_of_false (fetch_ne_ok_of_path? hnone shown) (fetch_ne_ok_of_path? hnone shown)

/-- A document is what was written under its name, and no other document changes. -/
theorem wrote_put (hvalid : isUserId id = true) :
    Mounted.Wrote ⟨.documents s, tree⟩ id record ⟨.documents s, tree.put
      (s.directory.child (nameOf id)).key (.file (documentText record).toUTF8)⟩ := by
  have hkey := isEntryKey_document s.directory id
  have hothers : ∀ other ≠ id, ∀ shown, s.fetch tree other = .ok shown ↔
      s.fetch (tree.put (s.directory.child (nameOf id)).key
        (.file (documentText record).toUTF8)) other = .ok shown :=
    fun other hother shown => fetch_eq_ok_congr_of_ne
      (fun key hne => (Tree.find?_put_of_ne hkey _ hne).symm) hother shown
  refine ⟨rfl, fun shown => ?_, fun other hother shown => (hothers other hother shown).mpr,
    fun _ other hother shown => (hothers other hother shown).mp, fun _ hstore key hne => ?_⟩
  rotate_left
  · cases hstore
    exact Tree.find?_put_of_ne hkey _ hne
  have hfind := Tree.find?_put_self (t := tree) hkey (.file (documentText record).toUTF8)
  have hload : load (tree.put (s.directory.child (nameOf id)).key
      (.file (documentText record).toUTF8)) (s.directory.child (nameOf id)) = .ok shown ↔
        Yaml.readTexts (documentText record).toUTF8 = .ok (some shown) := by
    rw [load, Tree.read_of_find? hfind]
    simp only [Except.mapError, bind, Except.bind]
    cases Yaml.readTexts (documentText record).toUTF8 with
    | error fault => simp
    | ok texts => cases texts <;> simp
  refine Iff.trans fetch_eq_ok_iff ?_
  simp only [path?_of_isUserId hvalid, Option.some.injEq, exists_eq_left', hload]
  exact and_iff_right (Tree.isFile_of_find? hfind (by simp))

theorem dropped_erase (hvalid : isUserId id = true) :
    Mounted.Dropped ⟨.documents s, tree⟩ id
      ⟨.documents s, tree.erase (s.directory.child (nameOf id)).key⟩ := by
  have hkey := isEntryKey_document s.directory id
  refine ⟨rfl, fun other shown => ?_⟩
  by_cases hother : other = id
  · refine iff_of_false (fun hfetch => ?_) fun h => h.1 hother
    rcases fetch_eq_ok_iff.mp hfetch with ⟨path, hpath, hfile, -⟩
    rw [hother, path?_of_isUserId hvalid] at hpath
    cases hpath
    rw [Tree.isFile_of_none (by rw [Tree.find?_erase hkey, if_pos rfl])] at hfile
    cases hfile
  · refine Iff.trans ?_ (and_iff_right hother).symm
    refine (fetch_eq_ok_congr_of_ne (fun key hne => ?_) hother shown).symm
    rw [Tree.find?_erase hkey, if_neg hne]

end Documents

/-!
## Any store
-/

namespace Mounted

variable {m m' : Mounted Store} {fields : List String} {id : String} {now : Moment}

theorem find?_eq_none_of_fetch {b : Book}
    (hfetch : RecordStore.fetch m id = RecordStore.fetch b id)
    (hfree : ∀ old, RecordStore.fetch m id ≠ .ok old) : b.find? id = none := by
  by_contra hfound
  rcases Option.ne_none_iff_exists'.mp hfound with ⟨old, hold⟩
  exact hfree old (hfetch.trans (Book.fetch_eq_ok_iff.mpr hold))

theorem Stands.wrote_of_insert (h : m.Stands fields) {record : Record} (hvalid : isUserId id = true)
    (hfull : Entries.keys record = fields) (hfree : ∀ old, RecordStore.fetch m id ≠ .ok old)
    (hinsert : RecordStore.insert m now id record = .ok m') :
    m.Wrote id (record.stampNew fields now id) m' := by
  rcases Steps.map_eq_ok.mp hinsert with ⟨tree', htree, rfl⟩
  rcases m with ⟨store, tree⟩
  -- A file and a table are known by the book that they hold, a document by its own path.
  cases store with
  | sheet s =>
      have hput : s.insert tree now id record = .ok tree' := htree
      rcases Steps.bind_eq_ok.mp hput with ⟨⟨⟩, hnew, -⟩
      rcases h with ⟨b, hsound, rfl, hholds⟩ | hlost
      · have hnext := Book.insert_of_free hnew
          (find?_eq_none_of_fetch (hholds.fetch hsound.keyed id) hfree) now
        rw [hholds.insert hsound.keyed, hnext] at hput
        cases hput
        exact Sheet.wrote_put hholds hsound (hsound.wrote_of_insert hfull hvalid hnext)
      · exact absurd hput (hlost.insert_ne_ok now id record tree')
  | documents s =>
      obtain rfl : s.fields = fields := h
      rcases Documents.insert_eq_ok htree with ⟨-, rfl⟩
      exact Documents.wrote_put hvalid
  | table s =>
      have hput : s.insert tree now id record = .ok tree' := htree
      rcases Steps.bind_eq_ok.mp hput with ⟨⟨⟩, hnew, -⟩
      rcases h with ⟨b, hsound, rfl, hholds⟩
      have hnext := Book.insert_of_free hnew
        (find?_eq_none_of_fetch (hholds.fetch hsound id) hfree) now
      rcases hholds.insert hsound hfull hnext with ⟨next, hmade, hholds'⟩
      rw [hmade] at hput
      cases hput
      exact TableStore.wrote_of_holds hholds hsound hholds'
        (hsound.wrote_of_insert hfull hvalid hnext)

theorem Stands.wrote_of_update (h : m.Stands fields) {changes old : Record}
    (hfound : RecordStore.fetch m id = .ok old)
    (hupdate : RecordStore.update m now id changes = .ok m') :
    m.Wrote id (Entries.setAll old (changes.stampChanges fields now)) m' := by
  rcases Steps.map_eq_ok.mp hupdate with ⟨tree', htree, rfl⟩
  rcases m with ⟨store, tree⟩
  cases store with
  | sheet s =>
      have hput : s.update tree now id changes = .ok tree' := htree
      rcases h with ⟨b, hsound, rfl, hholds⟩ | hlost
      · have hold := Book.fetch_eq_ok_iff.mp ((hholds.fetch hsound.keyed id).symm.trans hfound)
        have hnext := Book.update_of_found hold now changes
        rw [hholds.update hsound.keyed, hnext] at hput
        cases hput
        exact Sheet.wrote_put hholds hsound (hsound.wrote_of_update hold hnext)
      · exact absurd hfound (hlost.fetch_ne_ok id old)
  | documents s =>
      obtain rfl : s.fields = fields := h
      rcases Documents.update_eq_ok hfound htree with ⟨hvalid, rfl⟩
      exact Documents.wrote_put hvalid
  | table s =>
      have hput : s.update tree now id changes = .ok tree' := htree
      rcases h with ⟨b, hsound, rfl, hholds⟩
      have hold := Book.fetch_eq_ok_iff.mp ((hholds.fetch hsound id).symm.trans hfound)
      have hnext := Book.update_of_found hold now changes
      rcases hholds.update hsound hnext with ⟨next, hmade, hholds'⟩
      rw [hmade] at hput
      cases hput
      exact TableStore.wrote_of_holds hholds hsound hholds' (hsound.wrote_of_update hold hnext)

theorem Stands.dropped_of_remove (h : m.Stands fields) {old : Record}
    (hfound : RecordStore.fetch m id = .ok old) (hremove : RecordStore.remove m id = .ok m') :
    m.Dropped id m' := by
  rcases Steps.map_eq_ok.mp hremove with ⟨tree', htree, rfl⟩
  rcases m with ⟨store, tree⟩
  cases store with
  | sheet s =>
      have hput : s.remove tree id = .ok tree' := htree
      rcases h with ⟨b, hsound, rfl, hholds⟩ | hlost
      · have hold := Book.fetch_eq_ok_iff.mp ((hholds.fetch hsound.keyed id).symm.trans hfound)
        rw [hholds.remove hsound.keyed, Book.remove_of_found hold] at hput
        cases hput
        exact Sheet.dropped_put hholds hsound
      · exact absurd hfound (hlost.fetch_ne_ok id old)
  | documents s =>
      rcases Documents.fetch_eq_ok_iff.mp hfound with ⟨path, hpath, hfile, -⟩
      rcases Documents.isUserId_of_path? hpath with ⟨hvalid, rfl⟩
      have hput : s.remove tree id = .ok tree' := htree
      rw [Documents.remove, hpath] at hput
      simp only [if_pos hfile] at hput
      rw [Tree.removeFile_eq_ok (Steps.mapError_eq_ok.mp hput)]
      exact Documents.dropped_erase hvalid
  | table s =>
      have hput : s.remove tree id = .ok tree' := htree
      rcases h with ⟨b, hsound, rfl, hholds⟩
      have hold := Book.fetch_eq_ok_iff.mp ((hholds.fetch hsound id).symm.trans hfound)
      rcases hholds.remove hsound (Book.remove_of_found hold) with ⟨next, hmade, hholds'⟩
      rw [hmade] at hput
      cases hput
      exact TableStore.dropped_of_holds hholds hsound hholds'

end Mounted
end Roster
