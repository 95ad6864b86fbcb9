import Roster.Proofs.Delimited.Reading
import Roster.Proofs.Store.Roll

/-!
# Files that were written by hand

A file may hold any text that is read as rows below a header: lines without cells, rows that are too
short or too long, line ends of every kind.  Taking records away and changing them leaves the other
rows as they are read, and so does adding one behind a text that ends where a row does.
-/

namespace Roster

/-!
## Rows below a header
-/

namespace SheetContent

theorem keys_rowOf {header : List String} (hnodup : header.Nodup) (cells : List String) :
    Entries.keys (rowOf header cells) = header := by
  have hkeys : Entries.keys
      (header.zip (cells ++ List.replicate (header.length - cells.length) "")) = header := by
    rw [Entries.keys]
    refine List.map_fst_zip ?_
    rw [List.length_append, List.length_replicate]
    omega
  rw [rowOf, Entries.setAll_nil_of_nodup (hkeys.symm ▸ hnodup), hkeys]

theorem rowOf_map {header : List String} (hnodup : header.Nodup) (values : String → String) :
    rowOf header (header.map values) = Roll.recordOf header values := by
  rw [← Roll.cellsOf_recordOf]
  exact rowOf_cellsOf hnodup (Roll.keys_recordOf header values)

/-- An entry of the record of a row is a cell under the last of several equal names, or is empty
because the row is short. -/
theorem mem_rowOf_iff {header cells : List String} {name cell : String} :
    (name, cell) ∈ rowOf header cells ↔ ∃ i : Nat, header[i]? = some name ∧
      name ∉ header.drop (i + 1) ∧
        (cells ++ List.replicate (header.length - cells.length) "")[i]? = some cell := by
  have hlength : header.length ≤
      (cells ++ List.replicate (header.length - cells.length) "").length := by
    rw [List.length_append, List.length_replicate]
    omega
  have hnodup : (Entries.keys (rowOf header cells)).Nodup := Entries.nodup_keys_setAll List.nodup_nil
  rw [← Entries.lookup_setAll_zip hlength]
  exact ⟨Entries.lookup_of_mem hnodup, Entries.mem_of_lookup⟩

theorem mem_of_mem_rowOf {header cells : List String} {entry : String × String}
    (h : entry ∈ rowOf header cells) : entry.2 ∈ cells ∨ entry.2 = "" := by
  rcases mem_rowOf_iff.mp h with ⟨i, -, -, hcell⟩
  rcases List.mem_append.mp (List.mem_of_getElem? hcell) with hread | hpad
  · exact Or.inl hread
  · exact Or.inr (List.eq_of_mem_replicate hpad)

end SheetContent

namespace Sheet

variable {s : Sheet} {tree tree' : Tree} {text : String} {content : SheetContent} {now : Moment}
  {id : String}

theorem read_of_text (hfile : tree.find? s.path.key = some (.file text.toUTF8)) :
    s.read tree = ((Delimited.read s.format.delimiter text.toList).mapError
      fun _ => .ok .cellTooLong).map SheetContent.ofCells := by
  unfold Sheet.read
  rw [Tree.read_of_find? hfile]
  simp only [Except.mapError, bind, Except.bind, Text.decodeUtf8_toUTF8]
  cases Delimited.read s.format.delimiter text.toList with
  | error long => rfl
  | ok cells => rfl

/-- The file holds a text that is read as content.  The header has the fields that no caller can
change and no name twice, and every row holds more than blanks. -/
structure IsReadAs (s : Sheet) (tree : Tree) (text : String) (content : SheetContent) : Prop where
  file : tree.find? s.path.key = some (.file text.toUTF8)
  read : s.read tree = .ok content
  header_nodup : content.header.Nodup
  known : ∀ field ∈ Record.readOnlyFields, field ∈ content.header
  filled : ∀ row ∈ content.rows, ∃ entry ∈ row, Text.trim entry.2.toList ≠ []

def lineOf (d : Char) (header : List String) (now : Moment) (id : String) (record : Record) :
    String :=
  String.ofList (Delimited.writeRow d (header.map (Roll.newValues now id record)))

def changedRow (header : List String) (now : Moment) (changes row : Record) : Record :=
  Entries.setAll row (changes.stampChanges header now)

/-- A row that is read as it is written: it has all fields, more than blanks, and no cell that is
too long. -/
structure IsLasting (header : List String) (row : Record) : Prop where
  full : Entries.keys row = header
  filled : ∃ entry ∈ row, Text.trim entry.2.toList ≠ []
  admits : Admits row

namespace IsReadAs

theorem exists_cells (h : s.IsReadAs tree text content) :
    ∃ rows, Delimited.read s.format.delimiter text.toList = .ok (content.header :: rows) ∧
      content.rows = (rows.filter (!SheetContent.isBlankRow ·)).map
        (SheetContent.rowOf content.header) := by
  have hread := h.read
  rw [read_of_text h.file] at hread
  rcases Steps.map_eq_ok.mp hread with ⟨cells, hcells, hcontent⟩
  have hcells := Steps.mapError_eq_ok.mp hcells
  cases cells with
  | nil =>
      have hnever := h.known Record.idField (by simp [Record.readOnlyFields])
      rw [← hcontent] at hnever
      cases hnever
  | cons header rows =>
      rw [← hcontent]
      exact ⟨rows, hcells, rfl⟩

theorem full (h : s.IsReadAs tree text content) :
    ∀ row ∈ content.rows, Entries.keys row = content.header := by
  rcases h.exists_cells with ⟨rows, -, hrows⟩
  intro row hrow
  rw [hrows] at hrow
  rcases List.mem_map.mp hrow with ⟨cells, -, rfl⟩
  exact SheetContent.keys_rowOf h.header_nodup cells

theorem fits_header (h : s.IsReadAs tree text content) : Delimited.Fits content.header := by
  rcases h.exists_cells with ⟨rows, hread, -⟩
  exact Delimited.fits_of_read hread content.header List.mem_cons_self

theorem isLasting (h : s.IsReadAs tree text content) {row : Record} (hrow : row ∈ content.rows) :
    IsLasting content.header row where
  full := h.full row hrow
  filled := h.filled row hrow
  admits := by
    rcases h.exists_cells with ⟨rows, hread, hrows⟩
    rw [hrows] at hrow
    rcases List.mem_map.mp hrow with ⟨cells, hcells, rfl⟩
    have hfits := Delimited.fits_of_read hread cells
      (List.mem_cons_of_mem _ (List.mem_of_mem_filter hcells))
    intro entry hentry
    rcases SheetContent.mem_of_mem_rowOf hentry with hcell | hempty
    · exact hfits entry.2 hcell
    · rw [hempty]
      exact Nat.zero_le _

theorem idField_mem (h : s.IsReadAs tree text content) : Record.idField ∈ content.header :=
  h.known Record.idField (by simp [Record.readOnlyFields])

theorem lookup_idField_beq (h : s.IsReadAs tree text content) {row : Record}
    (hrow : row ∈ content.rows) (id : String) :
    (row.lookup Record.idField == some id) = (row.id == id) :=
  Record.lookup_idField_beq ((h.full row hrow).symm ▸ h.idField_mem) id

theorem readOr (h : s.IsReadAs tree text content) (refusal : Cause → Refusal) :
    s.readOr tree refusal = .ok content := by
  rw [Sheet.readOr, h.read]
  rfl

theorem modifiedField_mem (h : s.IsReadAs tree text content) :
    Record.modifiedField ∈ content.header :=
  h.known Record.modifiedField (by simp [Record.readOnlyFields])

/-!
## A new row
-/

theorem any_lookup_iff (h : s.IsReadAs tree text content) (id : String) :
    (content.rows.any fun row => row.lookup Record.idField == some id) = true ↔
      ∃ row ∈ content.rows, row.id = id := by
  rw [List.any_eq_true]
  refine exists_congr fun row => and_congr_right fun hrow => ?_
  rw [h.lookup_idField_beq hrow, beq_iff_eq]

theorem insert_eq_ok_iff (h : s.IsReadAs tree text content) {record : Record} :
    s.insert tree now id record = .ok tree' ↔
      RecordStore.checkNew id record = .ok () ∧ (∀ row ∈ content.rows, row.id ≠ id) ∧
      tree' = tree.put s.path.key
        (.file (text ++ lineOf s.format.delimiter content.header now id record).toUTF8) := by
  rw [Sheet.insert, h.readOr]
  cases RecordStore.checkNew id record with
  | error failure => simp [bind, Except.bind]
  | ok _ =>
      simp only [bind, Except.bind, true_and, Tree.append_of_find? h.file, Except.mapError,
        cellsOf_stampNew]
      by_cases hold : ∃ row ∈ content.rows, row.id = id
      · rw [if_pos ((h.any_lookup_iff id).mpr hold)]
        rcases hold with ⟨row, hrow, hid⟩
        refine iff_of_false (fun heq => ?_) fun hfree => hfree.1 row hrow hid
        cases heq
      · rw [if_neg (mt (h.any_lookup_iff id).mp hold)]
        have hfree : ∀ row ∈ content.rows, row.id ≠ id :=
          fun row hrow hid => hold ⟨row, hrow, hid⟩
        constructor
        · exact fun heq => ⟨hfree, (Except.ok.inj heq).symm⟩
        · rintro ⟨-, rfl⟩
          rfl

theorem isLasting_newValues (h : s.IsReadAs tree text content) {record : Record}
    (hfits : Delimited.Fits (content.header.map (Roll.newValues now id record))) :
    IsLasting content.header (Roll.recordOf content.header (Roll.newValues now id record)) where
  full := Roll.keys_recordOf _ _
  filled := by
    refine ⟨(Record.modifiedField, Roll.newValues now id record Record.modifiedField), ?_, ?_⟩
    · exact List.mem_map.mpr ⟨_, h.modifiedField_mem, rfl⟩
    · rw [Roll.newValues_modifiedField]
      exact Roll.trim_stamp_ne_nil now
  admits := by
    intro entry hentry
    rcases List.mem_map.mp hentry with ⟨field, hfield, rfl⟩
    exact hfits _ (List.mem_map_of_mem hfield)

/-- A line of short values behind a text that ends where a row does is read as one more row. -/
theorem appended (h : s.IsReadAs tree text content)
    (hended : Delimited.EndsRow s.format.delimiter text.toList) {record : Record}
    (hfits : Delimited.Fits (content.header.map (Roll.newValues now id record)))
    (hfile : tree'.find? s.path.key = some (.file
      (text ++ lineOf s.format.delimiter content.header now id record).toUTF8)) :
    s.IsReadAs tree' (text ++ lineOf s.format.delimiter content.header now id record) { content with
        rows := content.rows ++ [Roll.recordOf content.header (Roll.newValues now id record)] } ∧
      Delimited.EndsRow s.format.delimiter
        (text ++ lineOf s.format.delimiter content.header now id record).toList := by
  rcases h.exists_cells with ⟨rows, hread, hrows⟩
  have hlasting := h.isLasting_newValues hfits
  have hfilled := SheetContent.isBlankRow_cellsOf h.header_nodup hlasting.full hlasting.filled
  rw [Roll.cellsOf_recordOf] at hfilled
  have hlonger : s.read tree' = .ok { content with
      rows := content.rows ++ [Roll.recordOf content.header (Roll.newValues now id record)] } := by
    rw [read_of_text hfile, lineOf, String.toList_append, String.toList_ofList,
      hended.read_append s.format.isDelimiter hread hfits, List.cons_append]
    refine congrArg Except.ok ?_
    rw [SheetContent.ofCells, List.filter_append, List.map_append, ← hrows,
      List.filter_cons_of_pos (by rw [hfilled]; rfl), List.filter_nil, List.map_singleton,
      SheetContent.rowOf_map h.header_nodup]
  refine ⟨⟨hfile, hlonger, h.header_nodup, h.known, ?_⟩, ?_⟩
  · exact List.forall_mem_append.mpr ⟨h.filled, List.forall_mem_singleton.mpr hlasting.filled⟩
  · rw [lineOf, String.toList_append, String.toList_ofList]
    exact hended.append s.format.isDelimiter hread hfits

theorem unreadable_of_line (h : s.IsReadAs tree text content)
    (hended : Delimited.EndsRow s.format.delimiter text.toList) {record : Record}
    (hlong : ¬Delimited.Fits (content.header.map (Roll.newValues now id record)))
    (hfile : tree'.find? s.path.key = some (.file
      (text ++ lineOf s.format.delimiter content.header now id record).toUTF8)) :
    s.Unreadable tree' := by
  rcases h.exists_cells with ⟨rows, hread, -⟩
  refine ⟨.cellTooLong, ?_⟩
  rw [read_of_text hfile, lineOf, String.toList_append, String.toList_ofList,
    hended.read_append_of_long s.format.isDelimiter hread hlong]
  rfl

/-!
## A file that is written anew
-/

theorem written (h : s.IsReadAs tree text content) {rows : List Record}
    {refusal : Cause → Refusal} (hrows : ∀ row ∈ rows, IsLasting content.header row)
    (hwrite : s.writeOr tree ⟨content.header, rows⟩ refusal = .ok tree') :
    s.IsReadAs tree' (SheetContent.text s.format ⟨content.header, rows⟩) ⟨content.header, rows⟩ ∧
      Delimited.EndsRow s.format.delimiter
        (SheetContent.text s.format ⟨content.header, rows⟩).toList := by
  have hfilled : ∀ row ∈ rows, ∃ entry ∈ row, Text.trim entry.2.toList ≠ [] :=
    fun row hrow => (hrows row hrow).filled
  have hadmits : ∀ row ∈ rows, Admits row := fun row hrow => (hrows row hrow).admits
  have hfile := (writeOr_eq_ok hwrite).2
  have hread := read_of_find? hfile
    ⟨h.header_nodup, fun row hrow => (hrows row hrow).full, hfilled⟩ h.fits_header hadmits
  refine ⟨⟨hfile, hread, h.header_nodup, h.known, hfilled⟩, ?_⟩
  rw [SheetContent.text, String.toList_ofList]
  refine Delimited.endsRow_writeRows s.format.isDelimiter (List.forall_mem_cons.mpr
    ⟨h.fits_header, fun cells hcells => ?_⟩)
  rcases List.mem_map.mp hcells with ⟨row, hrow, rfl⟩
  exact fits_cellsOf (hadmits row hrow) content.header

theorem remove_eq_ok (h : s.IsReadAs tree text content) (hremove : s.remove tree id = .ok tree') :
    s.writeOr tree { content with
      rows := content.rows.filter fun row => Record.id row != id } (.cannotDelete id) =
        .ok tree' := by
  have hrows : (content.rows.filter fun row => row.lookup Record.idField != some id) =
      content.rows.filter fun row => Record.id row != id := by
    refine List.filter_congr fun row hrow => ?_
    rw [bne, bne, h.lookup_idField_beq hrow]
  rw [Sheet.remove, h.readOr] at hremove
  simp only [bind, Except.bind, hrows] at hremove
  split at hremove
  · cases hremove
  · exact hremove

theorem exists_of_changeFirst (h : s.IsReadAs tree text content) {changes : Record}
    {rows rows' : List Record} (hrows : ∀ row ∈ rows, row ∈ content.rows)
    (hchange : changeFirst id changes rows = some rows') :
    ∃ (front : List Record) (row : Record) (back : List Record), rows = front ++ row :: back ∧
      (∀ other ∈ front, other.id ≠ id) ∧ row.id = id ∧
      rows' = front ++ Entries.setAll row changes :: back := by
  induction rows generalizing rows' with
  | nil => cases hchange
  | cons row rest ih =>
      rw [changeFirst, h.lookup_idField_beq (hrows row List.mem_cons_self)] at hchange
      by_cases hid : row.id = id
      · rw [if_pos (beq_iff_eq.mpr hid)] at hchange
        exact ⟨[], row, rest, rfl, fun _ hnever => (List.not_mem_nil hnever).elim, hid,
          (Option.some.inj hchange).symm⟩
      · rw [if_neg (mt beq_iff_eq.mp hid)] at hchange
        rcases Option.map_eq_some_iff.mp hchange with ⟨later, hlater, rfl⟩
        rcases ih (fun other hother => hrows other (List.mem_cons_of_mem _ hother)) hlater with
          ⟨front, found, back, rfl, hfront, hfound, rfl⟩
        exact ⟨row :: front, found, back, rfl, List.forall_mem_cons.mpr ⟨hid, hfront⟩, hfound, rfl⟩

theorem update_eq_ok (h : s.IsReadAs tree text content) {changes : Record}
    (hupdate : s.update tree now id changes = .ok tree') :
    ∃ (front : List Record) (row : Record) (back : List Record),
      content.rows = front ++ row :: back ∧ (∀ other ∈ front, other.id ≠ id) ∧ row.id = id ∧
      s.writeOr tree ⟨content.header, front ++ changedRow content.header now changes row :: back⟩
        (.cannotUpdate id) = .ok tree' := by
  rw [Sheet.update, h.readOr] at hupdate
  simp only [bind, Except.bind] at hupdate
  split at hupdate
  · rename_i rows hchange
    split at hupdate
    · cases hupdate
    · rcases h.exists_of_changeFirst (fun row hrow => hrow) hchange with
        ⟨front, row, back, hrows, hfront, hid, rfl⟩
      exact ⟨front, row, back, hrows, hfront, hid, hupdate⟩
  · cases hupdate

theorem isLasting_changedRow (h : s.IsReadAs tree text content) {row changes : Record}
    (hrow : row ∈ content.rows) (hadmits : Admits (changedRow content.header now changes row)) :
    IsLasting content.header (changedRow content.header now changes row) where
  full := Record.keys_setAll_stampChanges now changes h.known (h.full row hrow)
  filled := by
    refine ⟨_, Entries.mem_of_lookup
      (Record.lookup_modifiedField_setAll content.header now changes row), ?_⟩
    exact Roll.trim_stamp_ne_nil now
  admits := hadmits

/-- With the rows around it, a changed row is read when its values are short. -/
theorem changed (h : s.IsReadAs tree text content) {front back : List Record} {row changes : Record}
    (hrows : content.rows = front ++ row :: back)
    (hadmits : Admits (changedRow content.header now changes row)) {refusal : Cause → Refusal}
    (hwrite : s.writeOr tree
      ⟨content.header, front ++ changedRow content.header now changes row :: back⟩ refusal =
        .ok tree') :
    s.IsReadAs tree' (SheetContent.text s.format
        ⟨content.header, front ++ changedRow content.header now changes row :: back⟩)
        ⟨content.header, front ++ changedRow content.header now changes row :: back⟩ ∧
      Delimited.EndsRow s.format.delimiter (SheetContent.text s.format
        ⟨content.header, front ++ changedRow content.header now changes row :: back⟩).toList := by
  have hall : ∀ other ∈ front ++ row :: back, IsLasting content.header other :=
    fun other hother => h.isLasting (hrows ▸ hother)
  rcases List.forall_mem_append.mp hall with ⟨hbefore, hbehind⟩
  have hrow : row ∈ content.rows := hrows ▸ List.mem_append_right _ List.mem_cons_self
  refine h.written (List.forall_mem_append.mpr ⟨hbefore, ?_⟩) hwrite
  exact List.forall_mem_cons.mpr
    ⟨h.isLasting_changedRow hrow hadmits, (List.forall_mem_cons.mp hbehind).2⟩

/-- A changed row with a value that is too long cannot be read. -/
theorem unreadable_of_changed (h : s.IsReadAs tree text content) {front back : List Record}
    {row changes : Record} (hrows : content.rows = front ++ row :: back)
    (hlong : ¬Admits (changedRow content.header now changes row)) {refusal : Cause → Refusal}
    (hwrite : s.writeOr tree
      ⟨content.header, front ++ changedRow content.header now changes row :: back⟩ refusal =
        .ok tree') : s.Unreadable tree' := by
  rcases List.forall_mem_append.mp (hrows ▸ h.full) with ⟨hbefore, hbehind⟩
  rcases List.forall_mem_cons.mp hbehind with ⟨hrow, hbehind⟩
  have hfull := Record.keys_setAll_stampChanges now changes h.known hrow
  refine unreadable_of_not_admits (writeOr_eq_ok hwrite).2 h.header_nodup ?_ fun hall => ?_
  · exact List.forall_mem_append.mpr ⟨hbefore, List.forall_mem_cons.mpr ⟨hfull, hbehind⟩⟩
  · exact hlong (hall _ (List.mem_append_right _ List.mem_cons_self))

end IsReadAs

/-!
## Whatever the file looks like
-/

/-- A change or a removal leaves all other rows of a file as they were read, and so does a new
record whose line stands behind a text that ends where a row does. -/
theorem read_of_changed (h : s.IsReadAs tree text content) :
    (∀ now id record tree', s.insert tree now id record = .ok tree' →
      Delimited.EndsRow s.format.delimiter text.toList →
      Delimited.Fits (content.header.map (Roll.newValues now id record)) →
      s.read tree' = .ok { content with rows :=
        content.rows ++ [Roll.recordOf content.header (Roll.newValues now id record)] }) ∧
    (∀ now id changes tree', (Entries.keys changes).Nodup →
      s.update tree now id changes = .ok tree' →
      ∃ (front : List Record) (row : Record) (back : List Record),
        content.rows = front ++ row :: back ∧ (∀ other ∈ front, other.id ≠ id) ∧ row.id = id ∧
        (Delimited.Fits (content.header.map (Roll.newerValues now changes row.valueOf)) →
          s.read tree' = .ok { content with
            rows := front ++ Roll.recordOf content.header
              (Roll.newerValues now changes row.valueOf) :: back })) ∧
    ∀ id tree', s.remove tree id = .ok tree' → s.read tree' = .ok { content with
      rows := content.rows.filter fun row => Record.id row != id } := by
  refine ⟨fun now id record tree' hinsert hended hfits => ?_,
    fun now id changes tree' hchanges hupdate => ?_, fun id tree' hremove => ?_⟩
  · rcases h.insert_eq_ok_iff.mp hinsert with ⟨-, -, rfl⟩
    exact (h.appended hended hfits (Tree.find?_put_self s.isEntryKey_path _)).1.read
  · rcases h.update_eq_ok hupdate with ⟨front, row, back, hrows, hfront, hid, hwrite⟩
    refine ⟨front, row, back, hrows, hfront, hid, fun hfits => ?_⟩
    have hrow : row ∈ content.rows := hrows ▸ List.mem_append_right _ List.mem_cons_self
    have hchanged : Roll.recordOf content.header (Roll.newerValues now changes row.valueOf) =
        changedRow content.header now changes row := by
      rw [changedRow, ← setAll_stampChanges_recordOf h.header_nodup h.known hchanges,
        Roll.recordOf_valueOf h.header_nodup (h.full row hrow)]
    have hadmits : Admits (Roll.recordOf content.header
        (Roll.newerValues now changes row.valueOf)) := by
      intro entry hentry
      rcases List.mem_map.mp hentry with ⟨field, hfield, rfl⟩
      exact hfits _ (List.mem_map_of_mem hfield)
    rw [hchanged] at hadmits ⊢
    exact (h.changed hrows hadmits hwrite).1.read
  · exact (h.written (fun row hrow => h.isLasting (List.mem_of_mem_filter hrow))
      (h.remove_eq_ok hremove)).1.read

/-- A file with a line without cells, a row of blanks, a row that is too short, one that is too long
and holds a line end, and two rows of one id, all with different line ends. -/
def scribbled : String :=
  "note,user_id,created_date,last_mod_date\n\nhi,ada\r , \r\n\"a\nb\",bob,1,2,more\n,ada,3,4\r"

def scribbledRow (note id created modified : String) : Record :=
  [("note", note), ("user_id", id), ("created_date", created), ("last_mod_date", modified)]

theorem read_of_changed_of_scribbled :
    let s : Sheet := ⟨.ofText "", .csv⟩
    let tree := ({} : Tree).put s.path.key (.file scribbled.toUTF8)
    let header := ["note", "user_id", "created_date", "last_mod_date"]
    let ada := scribbledRow "hi" "ada" "" ""
    let bob := scribbledRow "a\nb" "bob" "1" "2"
    let otherAda := scribbledRow "" "ada" "3" "4"
    (∃ added, s.insert tree 0 "eve" [("note", "\"")] = .ok added ∧ s.read added = .ok
      ⟨header, [ada, bob, otherAda, scribbledRow "\"" "eve" (Moment.stamp 0) (Moment.stamp 0)]⟩) ∧
    (∃ changed, s.update tree 0 "ada" [("note", ",")] = .ok changed ∧ s.read changed = .ok
      ⟨header, [scribbledRow "," "ada" "" (Moment.stamp 0), bob, otherAda]⟩) ∧
    ∃ left, s.remove tree "ada" = .ok left ∧ s.read left = .ok ⟨header, [bob]⟩ := by
  intro s tree header ada bob otherAda
  have h : s.IsReadAs tree scribbled ⟨header, [ada, bob, otherAda]⟩ := by
    have hfile := Tree.find?_put_self (t := {}) s.isEntryKey_path (.file scribbled.toUTF8)
    refine ⟨hfile, ?_, by decide, by decide, by decide⟩
    rw [read_of_text hfile]
    decide +kernel
  rcases read_of_changed h with ⟨hinsert, hupdate, hremove⟩
  refine ⟨?_, ?_, ?_⟩
  · rcases Steps.exists_of_isOk (x := s.insert tree 0 "eve" [("note", "\"")]) (by decide +kernel) with
      ⟨added, hadded⟩
    exact ⟨added, hadded, hinsert 0 "eve" _ added hadded (by decide +kernel) (by decide)⟩
  · rcases Steps.exists_of_isOk (x := s.update tree 0 "ada" [("note", ",")]) (by decide +kernel) with
      ⟨changed, hchange⟩
    rcases hupdate 0 "ada" _ changed (by decide) hchange with
      ⟨front, row, back, hrows, hfront, hid, hread⟩
    cases front with
    | nil =>
        cases hrows
        exact ⟨changed, hchange, hread (by decide)⟩
    | cons first rest =>
        obtain rfl : ada = first := (List.cons.inj hrows).1
        exact absurd rfl (hfront ada List.mem_cons_self)
  · rcases Steps.exists_of_isOk (x := s.remove tree "ada") (by decide +kernel) with ⟨left, hleft⟩
    exact ⟨left, hleft, hremove "ada" left hleft⟩

end Sheet
end Roster
