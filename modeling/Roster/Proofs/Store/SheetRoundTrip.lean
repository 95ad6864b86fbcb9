import Roster.Proofs.Steps
import Roster.Proofs.Store.Sheet

/-!
# A file is read as it was written

Content whose rows fill the header is read back from its file, line ends, quotes and blanks
included, as long as no name and no value is longer than a cell.  A row that is added at the end
makes the file that is written for the longer content.
-/

namespace Roster

namespace Sheet

variable {s : Sheet} {tree base : Tree}

/-- The tree with content in the place of the file. -/
def putContent (s : Sheet) (tree : Tree) (content : SheetContent) : Tree :=
  tree.put s.path.key (.file (content.text s.format).toUTF8)

theorem write_eq_ok (hmake : tree.makeAll s.directory = .ok base)
    (hfree : base.isDirectory s.path = false) (content : SheetContent) :
    s.write tree content = .ok (s.putContent base content) := by
  have hdirectory := Tree.isDirectory_iff.mp (Tree.isDirectory_of_makeAll hmake)
  have hwrite : base.write s.path (content.text s.format).toUTF8 =
      .ok (s.putContent base content) := by
    unfold Tree.write
    split
    · rename_i hfind
      rw [Tree.isDirectory_iff.mpr hfind] at hfree
      cases hfree
    · rfl
    · rw [path_key, Tree.wayFault_append hdirectory, ← path_key]
      rfl
  rw [write, hmake]
  simp only [bind, Except.bind, hfree, hwrite]
  rfl

theorem find?_putContent (s : Sheet) (tree : Tree) (content : SheetContent) :
    (s.putContent tree content).find? s.path.key =
      some (.file (content.text s.format).toUTF8) :=
  Tree.find?_put_self s.isEntryKey_path _

theorem append_putContent (s : Sheet) (tree : Tree) (content : SheetContent) (row : Record) :
    (s.putContent tree content).append s.path (String.ofList (Delimited.writeRow s.format.delimiter
        (SheetContent.cellsOf content.header row))).toUTF8 =
      .ok (s.putContent tree { content with rows := content.rows ++ [row] }) := by
  rw [Tree.append_of_find? (s.find?_putContent tree content), putContent, Tree.put_put, putContent,
    text_append]

/-- What is read of content that was just written. -/
theorem read_putContent (s : Sheet) (tree : Tree) {content : SheetContent}
    (hregular : content.IsRegular) (hheader : Delimited.Fits content.header)
    (hrows : ∀ row ∈ content.rows, Admits row) :
    s.read (s.putContent tree content) = .ok content :=
  read_of_find? (s.find?_putContent tree content) hregular hheader hrows

/-- Content with a name that is longer than a cell is not read at all. -/
theorem read_putContent_of_long (s : Sheet) (tree : Tree) {content : SheetContent}
    (hlong : ¬Delimited.Fits content.header) :
    s.read (s.putContent tree content) = .error (.ok .cellTooLong) := by
  have hcells : ¬∀ cells ∈ content.header ::
      content.rows.map (SheetContent.cellsOf content.header), Delimited.Fits cells :=
    fun hall => hlong (hall content.header List.mem_cons_self)
  unfold Sheet.read
  rw [Tree.read_of_find? (s.find?_putContent tree content)]
  simp only [Except.mapError, bind, Except.bind, Text.decodeUtf8_toUTF8, SheetContent.text,
    String.toList_ofList, Delimited.read_writeRows_of_long s.format.isDelimiter hcells]

/-- The file that was written is read back, and adding to it is writing the longer content. -/
theorem read_write_append {content : SheetContent} (hmake : tree.makeAll s.directory = .ok base)
    (hfree : base.isDirectory s.path = false) (hnodup : content.header.Nodup)
    (hfull : ∀ row ∈ content.rows, Entries.keys row = content.header)
    (hfilled : ∀ row ∈ content.rows, ∃ entry ∈ row, Text.trim entry.2.toList ≠ [])
    (hheader : ∀ name ∈ content.header, name.toList.length ≤ Delimited.maxCell)
    (hrows : ∀ row ∈ content.rows, ∀ entry ∈ row, entry.2.toList.length ≤ Delimited.maxCell) :
    ∃ written, s.write tree content = .ok written ∧ s.read written = .ok content ∧
      (∀ row, ∃ longer,
        written.append s.path (String.ofList (Delimited.writeRow s.format.delimiter
          (SheetContent.cellsOf content.header row))).toUTF8 = .ok longer ∧
        s.write tree { content with rows := content.rows ++ [row] } = .ok longer) ∧
      ∀ now id record, RecordStore.checkNew id record = .ok () →
        (∀ row ∈ content.rows, row.lookup Record.idField ≠ some id) → ∃ longer,
          s.insert written now id record = .ok longer ∧
          s.write tree { content with
            rows := content.rows ++ [record.stampNew content.header now id] } = .ok longer := by
  have hread := s.read_putContent base ⟨hnodup, hfull, hfilled⟩ hheader hrows
  have hwrite := write_eq_ok hmake hfree
  refine ⟨s.putContent base content, hwrite content, hread, ?_, ?_⟩
  · intro row
    exact ⟨_, s.append_putContent base content row, hwrite _⟩
  · intro now id record hnew hother
    have hany : (content.rows.any fun row => row.lookup Record.idField == some id) = false := by
      simpa using hother
    refine ⟨_, ?_, hwrite _⟩
    rw [insert, hnew, readOr, hread]
    simp only [bind, Except.bind, Except.mapError, hany, s.append_putContent base content]
    rfl

theorem read_write_append_of_tricky : ∃ written longer,
    Sheet.write ⟨⟨"", ["store"]⟩, .csv⟩ {}
        ⟨["user_id", "note"], [[("user_id", "ada"), ("note", " a,\"b\"\r\nc\r")]]⟩ = .ok written ∧
      Sheet.read ⟨⟨"", ["store"]⟩, .csv⟩ written =
        .ok ⟨["user_id", "note"], [[("user_id", "ada"), ("note", " a,\"b\"\r\nc\r")]]⟩ ∧
      Sheet.insert ⟨⟨"", ["store"]⟩, .csv⟩ written 0 "bob" [("note", "\t")] = .ok longer ∧
      Sheet.write ⟨⟨"", ["store"]⟩, .csv⟩ {}
        ⟨["user_id", "note"], [[("user_id", "ada"), ("note", " a,\"b\"\r\nc\r")],
          Record.stampNew ["user_id", "note"] 0 "bob" [("note", "\t")]]⟩ = .ok longer := by
  obtain ⟨written, hwrite, hread, -, hinsert⟩ :=
    @read_write_append ⟨⟨"", ["store"]⟩, .csv⟩ {} _
      ⟨["user_id", "note"], [[("user_id", "ada"), ("note", " a,\"b\"\r\nc\r")]]⟩
      rfl rfl (by decide) (by decide) (by decide) (by decide) (by decide)
  obtain ⟨longer, hlonger, hwhole⟩ := hinsert 0 "bob" [("note", "\t")] rfl (by decide)
  exact ⟨written, longer, hwrite, hread, hlonger, hwhole⟩

/-- A name that is longer than a cell is written and cannot be read. -/
theorem not_read_of_long_name :
    [String.ofList (List.replicate 131073 'x'), "y"].Nodup ∧ ∃ written,
      Sheet.write ⟨⟨"", ["store"]⟩, .csv⟩ {} ⟨[String.ofList (List.replicate 131073 'x'), "y"], []⟩ =
          .ok written ∧
        Sheet.read ⟨⟨"", ["store"]⟩, .csv⟩ written ≠
          .ok ⟨[String.ofList (List.replicate 131073 'x'), "y"], []⟩ := by
  have hlong : 131073 = (String.ofList (List.replicate 131073 'x')).toList.length := by
    rw [String.toList_ofList, List.length_replicate]
  constructor
  · rw [List.nodup_cons]
    refine ⟨fun hmem => ?_, List.nodup_singleton "y"⟩
    rw [List.mem_singleton.mp hmem] at hlong
    exact absurd hlong (by decide)
  · refine ⟨_, write_eq_ok (s := ⟨⟨"", ["store"]⟩, .csv⟩) rfl rfl _, ?_⟩
    rw [read_putContent_of_long]
    · exact fun heq => nomatch heq
    · intro hfits
      have hbound := hfits _ List.mem_cons_self
      rw [← hlong] at hbound
      exact absurd hbound (by decide)

end Sheet
end Roster
