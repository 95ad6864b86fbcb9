import Mathlib.Data.List.Find
import Roster.Proofs.Delimited.RoundTrip
import Roster.Proofs.Storage.Tree
import Roster.Proofs.Store.Book
import Roster.Store.Sheet

/-!
# A book in one file

The file is the text of the records of the book.  Adding a line makes it the text of the longer
book, and every other change writes the text of the changed book.
-/

namespace Roster

/-!
## Rows
-/

theorem SheetFormat.isDelimiter (format : SheetFormat) :
    Delimited.IsDelimiter format.delimiter := by
  cases format <;> simp [Delimited.IsDelimiter, delimiter]

namespace SheetContent

theorem rowOf_cellsOf {fields : List String} {record : Record} (hnodup : fields.Nodup)
    (hfull : Entries.keys record = fields) : rowOf fields (cellsOf fields record) = record := by
  have hpad : cellsOf fields record ++
      List.replicate (fields.length - (cellsOf fields record).length) "" =
        fields.map record.valueOf := by
    simp [cellsOf]
  have hmap : fields.map (fun field => (field, record.valueOf field)) = record := by
    rw [← hfull]
    exact Record.map_valueOf (hfull.symm ▸ hnodup)
  rw [rowOf, hpad, ← List.map_prod_left_eq_zip, hmap]
  exact Entries.setAll_nil_of_nodup (hfull.symm ▸ hnodup)

theorem isBlankRow_cellsOf {fields : List String} {record : Record} (hnodup : fields.Nodup)
    (hfull : Entries.keys record = fields)
    (hfilled : ∃ entry ∈ record, Text.trim entry.2.toList ≠ []) :
    isBlankRow (cellsOf fields record) = false := by
  rcases hfilled with ⟨⟨field, value⟩, hentry, hvalue⟩
  have hlookup := Entries.lookup_of_mem (hfull.symm ▸ hnodup) hentry
  have hfield : field ∈ fields := hfull ▸ List.mem_map_of_mem hentry
  rw [isBlankRow, List.all_eq_false]
  refine ⟨value, List.mem_map.mpr ⟨field, hfield, ?_⟩, by simpa using hvalue⟩
  rw [Record.valueOf, hlookup, Option.getD_some]

/-- Every row has a value under each name of the header, and one that is more than blanks. -/
structure IsRegular (content : SheetContent) : Prop where
  header_nodup : content.header.Nodup
  full : ∀ row ∈ content.rows, Entries.keys row = content.header
  filled : ∀ row ∈ content.rows, ∃ entry ∈ row, Text.trim entry.2.toList ≠ []

theorem IsRegular.ofCells {content : SheetContent} (h : content.IsRegular) :
    ofCells (content.header :: content.rows.map (cellsOf content.header)) = content := by
  have hfilled : (content.rows.map (cellsOf content.header)).filter (!isBlankRow ·) =
      content.rows.map (cellsOf content.header) := by
    rw [List.filter_eq_self]
    intro cells hcells
    rcases List.mem_map.mp hcells with ⟨row, hrow, rfl⟩
    rw [isBlankRow_cellsOf h.header_nodup (h.full row hrow) (h.filled row hrow)]
    rfl
  have hrows : (content.rows.map (cellsOf content.header)).map (rowOf content.header) =
      content.rows := by
    rw [List.map_map]
    refine (List.map_congr_left fun row hrow => ?_).trans (List.map_id content.rows)
    exact rowOf_cellsOf h.header_nodup (h.full row hrow)
  rw [SheetContent.ofCells, hfilled, hrows]

end SheetContent

namespace Sheet

/-!
## The file
-/

/-- No value of the record is longer than a cell may be. -/
def Admits (record : Record) : Prop :=
  ∀ entry ∈ record, entry.2.toList.length ≤ Delimited.maxCell

instance (record : Record) : Decidable (Admits record) :=
  inferInstanceAs (Decidable (∀ entry ∈ record, _ ≤ _))

/-- The file holds the records of a book. -/
structure Holds (s : Sheet) (tree : Tree) (b : Book) : Prop where
  directory : tree.isDirectory s.directory = true
  file : tree.find? s.path.key =
    some (.file (SheetContent.text s.format ⟨b.fields, b.records⟩).toUTF8)
  header : Delimited.Fits b.fields
  admits : ∀ record ∈ b.records, Admits record

theorem fits_cellsOf {record : Record} (h : Admits record) (fields : List String) :
    Delimited.Fits (SheetContent.cellsOf fields record) := by
  intro cell hcell
  rcases List.mem_map.mp hcell with ⟨field, -, rfl⟩
  rw [Record.valueOf]
  cases hlookup : record.lookup field with
  | none => exact Nat.zero_le _
  | some value => exact h (field, value) (Entries.mem_of_lookup hlookup)

theorem fileName_ne (format : SheetFormat) : fileName format ≠ ".." ∧ fileName format ≠ "/" := by
  cases format <;> decide

theorem path_key (s : Sheet) : s.path.key = s.directory.key ++ [fileName s.format] :=
  Path.key_child (fileName_ne s.format).1 s.directory

theorem isEntryKey_path (s : Sheet) : Tree.IsEntryKey s.path.key := by
  rw [path_key]
  exact Tree.isEntryKey_append (fileName_ne s.format).2

variable {s : Sheet} {tree : Tree} {b : Book}

/-- Content without gaps whose cells are short enough is read from its text. -/
theorem read_of_find? {content : SheetContent}
    (hfile : tree.find? s.path.key = some (.file (content.text s.format).toUTF8))
    (hregular : content.IsRegular) (hheader : Delimited.Fits content.header)
    (hadmits : ∀ row ∈ content.rows, Admits row) : s.read tree = .ok content := by
  have hfits : ∀ cells ∈ content.header :: content.rows.map (SheetContent.cellsOf content.header),
      Delimited.Fits cells := by
    intro cells hcells
    rcases List.mem_cons.mp hcells with rfl | hrows
    · exact hheader
    · rcases List.mem_map.mp hrows with ⟨record, hrecord, rfl⟩
      exact fits_cellsOf (hadmits record hrecord) content.header
  have hcells := Delimited.read_writeRows s.format.isDelimiter hfits
  unfold Sheet.read
  rw [Tree.read_of_find? hfile]
  simp only [Except.mapError, bind, Except.bind, Text.decodeUtf8_toUTF8, SheetContent.text,
    String.toList_ofList, hcells, hregular.ofCells]

/-- Reading the file gives the records of the book. -/
theorem Holds.read (h : s.Holds tree b) (hkeyed : b.Keyed) :
    s.read tree = .ok ⟨b.fields, b.records⟩ :=
  read_of_find? h.file ⟨hkeyed.fields_nodup, hkeyed.full, hkeyed.filled⟩ h.header h.admits

theorem Holds.readOr (h : s.Holds tree b) (hkeyed : b.Keyed) (refusal : Cause → Refusal) :
    s.readOr tree refusal = .ok ⟨b.fields, b.records⟩ := by
  rw [Sheet.readOr, h.read hkeyed]
  rfl

/-- The tree after the records of a book were written. -/
def put (s : Sheet) (tree : Tree) (b : Book) : Tree :=
  tree.put s.path.key (.file (SheetContent.text s.format ⟨b.fields, b.records⟩).toUTF8)

theorem Holds.put (h : s.Holds tree b) {b' : Book} (hfields : b'.fields = b.fields)
    (hadmits : ∀ record ∈ b'.records, Admits record) : s.Holds (s.put tree b') b' where
  directory := by
    have hne : s.directory.key ≠ s.path.key := by
      rw [path_key]
      exact fun heq => by simpa using congrArg List.length heq
    rw [Sheet.put, Tree.isDirectory_iff, Tree.find?_put_of_ne s.isEntryKey_path _ hne]
    exact Tree.isDirectory_iff.mp h.directory
  file := Tree.find?_put_self s.isEntryKey_path _
  header := hfields.symm ▸ h.header
  admits := hadmits

theorem Holds.writeOr (h : s.Holds tree b) (records : List Record) (refusal : Cause → Refusal) :
    s.writeOr tree ⟨b.fields, records⟩ refusal = .ok (s.put tree ⟨b.fields, records⟩) := by
  have hfile : tree.isDirectory s.path = false := by
    rw [Bool.eq_false_iff, Ne, Tree.isDirectory_iff, h.file]
    exact fun heq => nomatch heq
  have hwrite := Tree.write_of_find? h.file (fun heq => nomatch heq)
    (SheetContent.text s.format ⟨b.fields, records⟩).toUTF8
  rw [Sheet.writeOr, Sheet.write, Tree.makeAll_of_isDirectory h.directory]
  simp only [bind, Except.bind, hfile, hwrite]
  rfl

/-!
## Requests
-/

theorem find?_lookup_eq (hkeyed : b.Keyed) (id : String) :
    (b.records.find? fun row => row.lookup Record.idField == some id) = b.find? id := by
  rw [Book.find?]
  refine List.find?_congr fun record hrecord => ?_
  exact Record.lookup_idField_beq (hkeyed.idField_mem_keys hrecord) id

theorem Holds.fetch (h : s.Holds tree b) (hkeyed : b.Keyed) (id : String) :
    s.fetch tree id = RecordStore.fetch b id := by
  simp only [RecordStore.fetch]
  by_cases hid : id = ""
  · have hnone : b.find? "" = none := by
      rw [Book.find?_eq_none_iff]
      exact fun record hrecord => hkeyed.ids_ne_empty record hrecord
    rw [Sheet.fetch, hid, hnone]
    rfl
  · have hbeq : ¬(id == "") = true := by simpa using hid
    rw [Sheet.fetch, if_neg hbeq, h.readOr hkeyed]
    simp only [bind, Except.bind, find?_lookup_eq hkeyed]
    cases b.find? id with
    | none => rfl
    | some record => rfl

theorem text_append (format : SheetFormat) (fields : List String) (records : List Record)
    (record : Record) :
    (SheetContent.text format ⟨fields, records ++ [record]⟩).toUTF8 =
      (SheetContent.text format ⟨fields, records⟩).toUTF8 ++
        (String.ofList (Delimited.writeRow format.delimiter
          (SheetContent.cellsOf fields record))).toUTF8 := by
  have hrows : Delimited.writeRows format.delimiter
      (fields :: (records ++ [record]).map (SheetContent.cellsOf fields)) =
        Delimited.writeRows format.delimiter
            (fields :: records.map (SheetContent.cellsOf fields)) ++
          Delimited.writeRow format.delimiter (SheetContent.cellsOf fields record) := by
    rw [List.map_append, List.map_singleton, ← List.cons_append, Delimited.writeRows_append]
    simp [Delimited.writeRows]
  rw [SheetContent.text, hrows, String.ofList_append]
  rfl

theorem Holds.insert (h : s.Holds tree b) (hkeyed : b.Keyed) (now : Moment) (id : String)
    (record : Record) :
    s.insert tree now id record = (RecordStore.insert b now id record).map (s.put tree) := by
  have hany : (b.records.any fun row => row.lookup Record.idField == some id) =
      (b.find? id).isSome := by
    rw [← find?_lookup_eq hkeyed, List.isSome_find?]
  simp only [RecordStore.insert]
  rw [Sheet.insert, h.readOr hkeyed]
  cases RecordStore.checkNew id record with
  | error failure => rfl
  | ok _ =>
      simp only [bind, Except.bind, hany, Tree.append_of_find? h.file, Except.mapError]
      cases b.find? id with
      | some old => rfl
      | none =>
          simp only [Option.isSome_none, Bool.false_eq_true, if_false, Except.map]
          rw [Sheet.put, Book.add, text_append]

theorem changeFirst_eq {rows : List Record} (hids : (rows.map Record.id).Nodup)
    (hkeys : ∀ row ∈ rows, Record.idField ∈ Entries.keys row) (id : String) (changes : Record) :
    changeFirst id changes rows =
      if (rows.find? fun row => row.id == id).isSome then
        some (rows.map (Book.changed id changes)) else none := by
  induction rows with
  | nil => rfl
  | cons row rest ih =>
      rw [List.map_cons, List.nodup_cons] at hids
      have hrow := Record.lookup_idField_beq (hkeys row List.mem_cons_self) id
      have hrest := ih hids.2 fun other hother => hkeys other (List.mem_cons_of_mem _ hother)
      rw [changeFirst, hrow, List.find?_cons, List.map_cons]
      by_cases hid : row.id = id
      · have hunchanged : rest.map (Book.changed id changes) = rest := by
          refine (List.map_congr_left fun other hother => ?_).trans (List.map_id rest)
          have hne : ¬(other.id == id) = true := by
            rw [beq_iff_eq]
            intro heq
            exact hids.1 (List.mem_map.mpr ⟨other, hother, heq.trans hid.symm⟩)
          rw [Book.changed, if_neg hne]
          rfl
        have hbeq : (row.id == id) = true := beq_iff_eq.mpr hid
        rw [if_pos hbeq, hbeq, hunchanged, Book.changed, if_pos hbeq]
        rfl
      · have hbeq : (row.id == id) = false := by simpa using hid
        rw [hbeq, hrest, Book.changed, hbeq]
        cases (rest.find? fun row => row.id == id) with
        | none => rfl
        | some other => rfl

theorem Holds.update (h : s.Holds tree b) (hkeyed : b.Keyed) (now : Moment) (id : String)
    (changes : Record) :
    s.update tree now id changes = (RecordStore.update b now id changes).map (s.put tree) := by
  have hchange := changeFirst_eq hkeyed.ids_nodup
    (fun record hrecord => hkeyed.idField_mem_keys hrecord) id (changes.stampChanges b.fields now)
  rw [← Book.find?] at hchange
  simp only [RecordStore.update]
  rw [Sheet.update, h.readOr hkeyed]
  simp only [bind, Except.bind, hchange]
  cases hfind : b.find? id with
  | none => rfl
  | some record =>
      rcases (Book.find?_eq_some_iff hkeyed.ids_nodup).mp hfind with ⟨hmem, rfl⟩
      have hid : (record.id == "") = false := by
        simpa using hkeyed.ids_ne_empty record hmem
      simp only [Option.isSome_some, if_true, hid]
      exact h.writeOr _ _

theorem filter_lookup_eq (hkeyed : b.Keyed) (id : String) :
    (b.records.filter fun row => row.lookup Record.idField != some id) = (b.drop id).records := by
  refine List.filter_congr fun record hrecord => ?_
  rw [bne, bne, Record.lookup_idField_beq (hkeyed.idField_mem_keys hrecord)]

theorem Holds.remove (h : s.Holds tree b) (hkeyed : b.Keyed) (id : String) :
    s.remove tree id = (RecordStore.remove b id).map (s.put tree) := by
  simp only [RecordStore.remove]
  rw [Sheet.remove, h.readOr hkeyed]
  simp only [bind, Except.bind, filter_lookup_eq hkeyed]
  cases hfind : b.find? id with
  | none =>
      have hsame : (b.drop id).records = b.records := by
        rw [Book.drop, List.filter_eq_self]
        intro record hrecord
        simpa using Book.find?_eq_none_iff.mp hfind record hrecord
      simp only [hsame, beq_self_eq_true, Bool.true_or, if_true]
      rfl
  | some record =>
      rcases (Book.find?_eq_some_iff hkeyed.ids_nodup).mp hfind with ⟨hmem, rfl⟩
      have hid : (record.id == "") = false := by
        simpa using hkeyed.ids_ne_empty record hmem
      have hshorter : ((b.drop record.id).records.length == b.records.length) = false := by
        have hlt : (b.drop record.id).records.length < b.records.length :=
          List.length_filter_lt_length_iff_exists.mpr ⟨record, hmem, by simp⟩
        rw [beq_eq_false_iff_ne]
        omega
      simp only [hid, hshorter]
      exact h.writeOr _ _

theorem Holds.list (h : s.Holds tree b) (hkeyed : b.Keyed) (filter : Filter) :
    s.list tree filter = RecordStore.list b filter := by
  have hrows : (b.records.filter fun row => row.id != "" && filter.selects row) =
      b.records.filter filter.selects := by
    refine List.filter_congr fun record hrecord => ?_
    have hid : (record.id != "") = true := by
      simpa using hkeyed.ids_ne_empty record hrecord
    rw [hid, Bool.true_and]
  rw [Sheet.list, h.readOr hkeyed]
  simp only [bind, Except.bind, hrows]
  rfl

end Sheet
end Roster
