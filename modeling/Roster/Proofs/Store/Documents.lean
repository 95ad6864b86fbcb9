import Mathlib.Data.List.Forall2
import Mathlib.Data.List.Perm.Basic
import Roster.Proofs.Check.LoginName
import Roster.Proofs.Storage.Tree
import Roster.Proofs.Store.Book
import Roster.Store.Documents

/-!
# A book in documents

The directory has one document for each record of the book, under the name of its id, and no other
document.  Other files in the directory do no harm.
-/

namespace Roster
namespace Documents

/-!
## Names of documents
-/

/-- Name of the document of a user. -/
def nameOf (id : String) : String := id ++ ending

theorem nameOf_ne (id : String) : nameOf id ≠ ".." ∧ nameOf id ≠ "/" := by
  have hlast : (nameOf id).toList.getLast? = some 'l' := by
    rw [nameOf, String.toList_append, show ending.toList = ['.', 'y', 'a', 'm', 'l'] from rfl]
    simp
  refine ⟨fun heq => ?_, fun heq => ?_⟩
  · rw [heq] at hlast
    exact absurd hlast (by decide)
  · rw [heq] at hlast
    exact absurd hlast (by decide)

theorem nameOf_inj {a b : String} (h : nameOf a = nameOf b) : a = b :=
  (String.append_left_inj ending).mp h

theorem isDocumentName_nameOf (id : String) : isDocumentName (nameOf id) = true := by
  rw [isDocumentName, nameOf, List.isPrefixOf_iff_prefix, String.toList_append,
    List.reverse_append]
  exact List.prefix_append _ _

/-!
## The directory
-/

/-- The record is read back from its document. -/
def ReadsBack (record : Record) : Prop :=
  Yaml.readTexts (documentText record).toUTF8 = .ok (some record)

instance (record : Record) : Decidable (ReadsBack record) :=
  inferInstanceAs (Decidable (_ = _))

/-- The directory holds the records of a book. -/
structure Holds (s : Documents) (tree : Tree) (b : Book) : Prop where
  fields : s.fields = b.fields
  directory : tree.isDirectory s.directory = true
  names : ((tree.names s.directory).filter isDocumentName).Perm
    (b.records.map fun record => nameOf record.id)
  documents : ∀ record ∈ b.records, tree.find? (s.directory.child (nameOf record.id)).key =
    some (.file (documentText record).toUTF8)
  readsBack : ∀ record ∈ b.records, ReadsBack record

variable {s : Documents} {tree : Tree} {b : Book}

theorem key_document (directory : Path) (id : String) :
    (directory.child (nameOf id)).key = directory.key ++ [nameOf id] :=
  Path.key_child (nameOf_ne id).1 directory

theorem isEntryKey_document (directory : Path) (id : String) :
    Tree.IsEntryKey (directory.child (nameOf id)).key := by
  rw [key_document]
  exact Tree.isEntryKey_append (nameOf_ne id).2

theorem key_document_inj {directory : Path} {a b : String}
    (h : (directory.child (nameOf a)).key = (directory.child (nameOf b)).key) : a = b := by
  rw [key_document, key_document, List.append_singleton_inj] at h
  exact nameOf_inj h.2

theorem path?_of_isUserId {id : String} (h : isUserId id = true) :
    s.path? id = some (s.directory.child (nameOf id)) := by
  rw [path?, if_pos h]
  rfl

theorem Holds.find?_eq_none (h : s.Holds tree b) {id : String} (hfree : b.find? id = none) :
    tree.find? (s.directory.child (nameOf id)).key = none := by
  by_contra hfound
  rw [key_document, ← Ne, ← Tree.mem_names_iff (nameOf_ne id).2] at hfound
  have hname := h.names.subset (List.mem_filter.mpr ⟨hfound, isDocumentName_nameOf id⟩)
  rcases List.mem_map.mp hname with ⟨record, hrecord, heq⟩
  exact Book.find?_eq_none_iff.mp hfree record hrecord (nameOf_inj heq)

theorem load_of_find? {path : Path} {record : Record} (hreads : ReadsBack record)
    (hfind : tree.find? path.key = some (.file (documentText record).toUTF8)) :
    load tree path = .ok record := by
  rw [load, Tree.read_of_find? hfind]
  simp only [Except.mapError, bind, Except.bind]
  rw [show Yaml.readTexts (documentText record).toUTF8 = .ok (some record) from hreads]

theorem Holds.load (h : s.Holds tree b) {record : Record} (hrecord : record ∈ b.records) :
    Documents.load tree (s.directory.child (nameOf record.id)) = .ok record :=
  load_of_find? (h.readsBack record hrecord) (h.documents record hrecord)

theorem Holds.isFile (h : s.Holds tree b) {record : Record} (hrecord : record ∈ b.records) :
    tree.isFile (s.directory.child (nameOf record.id)) = true :=
  Tree.isFile_of_find? (h.documents record hrecord) fun heq => nomatch heq

theorem Holds.loadOr (h : s.Holds tree b) (hsound : b.Sound) {record : Record}
    (hrecord : record ∈ b.records) (refusal : Cause → Refusal) :
    s.loadOr tree record.id refusal = .ok (s.directory.child (nameOf record.id), record) := by
  rw [Documents.loadOr, path?_of_isUserId (hsound.ids_valid record hrecord)]
  simp only [h.isFile hrecord, if_true, h.load hrecord]

theorem Holds.isDirectory_put (h : s.Holds tree b) (id : String) (entry : Entry) :
    (tree.put (s.directory.child (nameOf id)).key entry).isDirectory s.directory = true := by
  have hne : s.directory.key ≠ (s.directory.child (nameOf id)).key := by
    rw [key_document]
    exact fun heq => by simpa using congrArg List.length heq
  rw [Tree.isDirectory_iff, Tree.find?_put_of_ne (isEntryKey_document s.directory id) _ hne]
  exact Tree.isDirectory_iff.mp h.directory

/-!
## Requests
-/

theorem Holds.fetch (h : s.Holds tree b) (hsound : b.Sound) (id : String) :
    s.fetch tree id = RecordStore.fetch b id := by
  simp only [RecordStore.fetch]
  cases hfind : b.find? id with
  | none =>
      have hmissing : s.loadOr tree id .cannotLoad = .error (.refused (.notFound id)) := by
        rw [Documents.loadOr]
        cases hvalid : isUserId id with
        | false => simp [path?, hvalid]
        | true =>
            rw [path?_of_isUserId hvalid]
            simp only [Tree.isFile_of_none (h.find?_eq_none hfind)]
            rfl
      rw [Documents.fetch, hmissing]
      rfl
  | some record =>
      rcases (Book.find?_eq_some_iff hsound.ids_nodup).mp hfind with ⟨hmem, rfl⟩
      rw [Documents.fetch, h.loadOr hsound hmem]
      rfl

theorem Holds.insert (h : s.Holds tree b) {b' : Book} {now : Moment} {id : String}
    {record : Record} (hvalid : isUserId id = true)
    (hinsert : RecordStore.insert b now id record = .ok b')
    (hreads : ∀ record ∈ b'.records, ReadsBack record) :
    ∃ tree', s.insert tree now id record = .ok tree' ∧ s.Holds tree' b' := by
  rcases Book.insert_eq_ok hinsert with ⟨hnew, hfree, rfl⟩
  have hnone := h.find?_eq_none hfree
  have hkey := isEntryKey_document s.directory id
  have hid := Record.id_stampNew b.fields now id record
  refine ⟨tree.put (s.directory.child (nameOf id)).key
    (.file (documentText (record.stampNew b.fields now id)).toUTF8), ?_, ?_⟩
  · rw [Documents.insert, hnew, h.fields, path?_of_isUserId hvalid]
    simp only [bind, Except.bind]
    rw [Tree.create_child (nameOf_ne id).1 h.directory hnone]
    rfl
  · refine ⟨h.fields, h.isDirectory_put id _, ?_, ?_, hreads⟩
    · have hin : Tree.nameIn s.directory.key (s.directory.child (nameOf id)).key =
          some (nameOf id) := Tree.nameIn_eq_some_iff.mpr (key_document s.directory id)
      have hone : [nameOf id].filter isDocumentName = [nameOf id] := by
        rw [List.filter_singleton, isDocumentName_nameOf, cond_true]
      rw [Tree.names_put hkey, if_pos hnone, hin, Book.add, List.filter_append, List.map_append,
        List.map_singleton, hid, Option.toList_some, hone]
      exact h.names.append_right _
    · intro other hother
      rcases List.mem_append.mp hother with hold | hnew
      · have hne : other.id ≠ id := Book.find?_eq_none_iff.mp hfree other hold
        rw [Tree.find?_put_of_ne hkey _ fun heq => hne (key_document_inj heq)]
        exact h.documents other hold
      · rw [List.mem_singleton.mp hnew, hid]
        exact Tree.find?_put_self hkey _

theorem Holds.update (h : s.Holds tree b) (hsound : b.Sound) {b' : Book} {now : Moment}
    {id : String} {changes : Record} (hupdate : RecordStore.update b now id changes = .ok b')
    (hreads : ∀ record ∈ b'.records, ReadsBack record) :
    ∃ tree', s.update tree now id changes = .ok tree' ∧ s.Holds tree' b' := by
  rcases Book.update_eq_ok hupdate with ⟨hfound, rfl⟩
  rcases Option.isSome_iff_exists.mp hfound with ⟨record, hrecord⟩
  rcases (Book.find?_eq_some_iff hsound.ids_nodup).mp hrecord with ⟨hmem, rfl⟩
  have hkey := isEntryKey_document s.directory record.id
  have hdocument := h.documents record hmem
  refine ⟨tree.put (s.directory.child (nameOf record.id)).key (.file (documentText
    (Entries.setAll record (changes.stampChanges b.fields now))).toUTF8), ?_, ?_⟩
  · rw [Documents.update, h.loadOr hsound hmem, h.fields]
    simp only [bind, Except.bind]
    rw [Tree.write_of_find? hdocument fun heq => nomatch heq]
    rfl
  · refine ⟨h.fields, h.isDirectory_put record.id _, ?_, ?_, hreads⟩
    · have hsame := Book.map_id_change b record.id now changes
      rw [Tree.names_put hkey, if_neg (by rw [hdocument]; exact fun heq => nomatch heq)]
      have hnames := congrArg (List.map nameOf) hsame
      rw [List.map_map, List.map_map] at hnames
      exact h.names.trans (List.Perm.of_eq hnames.symm)
    · intro other hother
      rcases List.mem_map.mp hother with ⟨before, hbefore, rfl⟩
      rw [Book.id_changed]
      by_cases hid : before.id = record.id
      · have hsame : before = record := List.inj_on_of_nodup_map hsound.ids_nodup hbefore hmem hid
        rw [hsame, Tree.find?_put_self hkey, Book.changed, if_pos (beq_self_eq_true _)]
      · rw [Tree.find?_put_of_ne hkey _ fun heq => hid (key_document_inj heq), Book.changed,
          if_neg (by simpa using hid)]
        exact h.documents before hbefore

theorem Holds.remove (h : s.Holds tree b) (hsound : b.Sound) {b' : Book} {id : String}
    (hremove : RecordStore.remove b id = .ok b') :
    ∃ tree', s.remove tree id = .ok tree' ∧ s.Holds tree' b' := by
  rcases Book.remove_eq_ok hremove with ⟨hfound, rfl⟩
  rcases Option.isSome_iff_exists.mp hfound with ⟨record, hrecord⟩
  rcases (Book.find?_eq_some_iff hsound.ids_nodup).mp hrecord with ⟨hmem, rfl⟩
  have hkey := isEntryKey_document s.directory record.id
  have hremain : ∀ other ∈ (b.drop record.id).records,
      other ∈ b.records ∧ other.id ≠ record.id := by
    intro other hother
    rcases List.mem_filter.mp hother with ⟨hold, hne⟩
    exact ⟨hold, by simpa using hne⟩
  refine ⟨tree.erase (s.directory.child (nameOf record.id)).key, ?_, ?_⟩
  · rw [Documents.remove, path?_of_isUserId (hsound.ids_valid record hmem)]
    simp only [h.isFile hmem, if_true]
    rw [Tree.removeFile_of_find? (h.documents record hmem) fun heq => nomatch heq]
    rfl
  · refine ⟨h.fields, ?_, ?_, ?_, ?_⟩
    · have hne : s.directory.key ≠ (s.directory.child (nameOf record.id)).key := by
        rw [key_document]
        exact fun heq => by simpa using congrArg List.length heq
      rw [Tree.isDirectory_iff, Tree.find?_erase hkey, if_neg hne]
      exact Tree.isDirectory_iff.mp h.directory
    -- Users with different ids have documents of different names, so one name goes with one record.
    · have hdropped : (b.drop record.id).records.map (fun other => nameOf other.id) =
          (b.records.map fun other => nameOf other.id).filter (· != nameOf record.id) := by
        rw [Book.drop, List.filter_map]
        congr 1
        refine List.filter_congr fun other _ => ?_
        rw [Function.comp_apply, Bool.eq_iff_iff, bne_iff_ne, bne_iff_ne]
        exact not_congr ⟨fun heq => congrArg nameOf heq, nameOf_inj⟩
      rw [key_document, Tree.names_erase, List.filter_comm, hdropped]
      exact h.names.filter _
    · intro other hother
      rcases hremain other hother with ⟨hold, hne⟩
      rw [Tree.find?_erase hkey, if_neg fun heq => hne (key_document_inj heq)]
      exact h.documents other hold
    · exact fun other hother => h.readsBack other (hremain other hother).1

theorem readable_eq_ok {directory : Path} {names : List String} {records : List Record}
    (h : List.Forall₂ (fun name record => Documents.load tree (directory.child name) = .ok record)
      names records) : readable directory tree names = .ok records := by
  induction h with
  | nil => rfl
  | cons hload _ ih =>
      rw [readable, hload]
      simp only [ih]
      rfl

theorem Holds.list (h : s.Holds tree b) (hsound : b.Sound) (filter : Filter) :
    s.list tree filter = RecordStore.list b filter := by
  have hnames : (documentNames s.directory tree).Perm
      (b.records.map fun record => nameOf record.id) :=
    (List.mergeSort_perm _ _).trans h.names
  have hloads : List.Forall₂
      (fun name record => Documents.load tree (s.directory.child name) = .ok record)
      (b.records.map fun record => nameOf record.id) b.records := by
    rw [List.forall₂_map_left_iff, List.forall₂_same]
    exact fun record hrecord => h.load hrecord
  rcases List.perm_comp_forall₂ hnames hloads with ⟨records, hread, hperm⟩
  have hsorted : Record.sortById (records.filter filter.selects) =
      Record.sortById (b.records.filter filter.selects) := by
    refine Record.eq_sortById ?_ (Record.pairwise_sortById _) ?_
    · exact hsound.ids_nodup.sublist (List.Sublist.map Record.id List.filter_sublist)
    · exact (List.mergeSort_perm _ _).trans (hperm.filter _)
  rw [Documents.list, readable_eq_ok hread]
  simp only [bind, Except.bind, hsorted]
  rfl

end Documents
end Roster
