import Roster.Proofs.Registry.Archives
import Roster.Proofs.Store.Edited

/-!
# What a new file replaces

A file is moved to an archive before a new one takes its place, but only when its records hold data.
A cell comes into a record only below a name of the header, and below the last of several equal
names.  What stands elsewhere does not keep a file from being replaced.
-/

namespace Roster

open Roster.Tree

/-!
## Cells that come into records
-/

namespace SheetContent

/-- The text has more than blanks. -/
def HasText (cell : String) : Prop :=
  Text.trim cell.toList ≠ []

instance (cell : String) : Decidable (HasText cell) := by
  unfold HasText
  infer_instance

/-- Some cell below the first row has more than blanks. -/
def HasTextBelow (cells : List (List String)) : Prop :=
  ∃ row ∈ cells.tail, ∃ cell ∈ row, HasText cell

/-- Some such cell stands under a name of the first row that does not stand again further right. -/
def ShowsTextBelow (cells : List (List String)) : Prop :=
  ∃ row ∈ cells.tail, ∃ (i : Nat) (name cell : String), (cells.headD [])[i]? = some name ∧
    name ∉ (cells.headD []).drop (i + 1) ∧ row[i]? = some cell ∧ HasText cell

/-- The names in the first row are different, and no row below it is longer. -/
def IsAligned (cells : List (List String)) : Prop :=
  (cells.headD []).Nodup ∧ ∀ row ∈ cells.tail, row.length ≤ (cells.headD []).length

variable {header cells : List String}

theorem getElem?_of_hasText {n i : Nat} {cell : String} (htext : HasText cell) :
    (cells ++ List.replicate n "")[i]? = some cell ↔ cells[i]? = some cell := by
  constructor
  · intro h
    rcases Nat.lt_or_ge i cells.length with hlt | hge
    · rwa [List.getElem?_append_left hlt] at h
    · rw [List.getElem?_append_right hge] at h
      have hempty := List.eq_of_mem_replicate (List.mem_of_getElem? h)
      exact absurd (by rw [hempty]; rfl) htext
  · intro h
    rw [List.getElem?_append_left (List.getElem?_eq_some_iff.mp h).1, h]

theorem hasData_ofCells_iff {rows : List (List String)} :
    (ofCells rows).hasData = true ↔ ShowsTextBelow rows := by
  have hentry : ∀ cell : String, (!(Text.trim cell.toList).isEmpty) = true ↔ HasText cell := by
    intro cell
    rw [HasText, Bool.not_eq_true', List.isEmpty_eq_false_iff]
  cases rows with
  | nil => exact iff_of_false Bool.false_ne_true (by rintro ⟨row, hrow, -⟩; cases hrow)
  | cons header rows =>
      rw [hasData, ofCells, List.any_map, List.any_eq_true]
      constructor
      · rintro ⟨row, hrow, hany⟩
        rcases List.any_eq_true.mp hany with ⟨⟨name, cell⟩, hmem, htext⟩
        rw [hentry] at htext
        rcases mem_rowOf_iff.mp hmem with ⟨i, hname, hlast, hcell⟩
        exact ⟨row, List.mem_of_mem_filter hrow, i, name, cell, hname, hlast,
          (getElem?_of_hasText htext).mp hcell, htext⟩
      · rintro ⟨row, hrow, i, name, cell, hname, hlast, hcell, htext⟩
        refine ⟨row, List.mem_filter.mpr ⟨hrow, ?_⟩, List.any_eq_true.mpr ⟨(name, cell), ?_, ?_⟩⟩
        · rw [Bool.not_eq_true', isBlankRow, List.all_eq_false]
          refine ⟨cell, List.mem_of_getElem? hcell, fun hblank => ?_⟩
          exact htext (List.isEmpty_iff.mp hblank)
        · exact mem_rowOf_iff.mpr ⟨i, hname, hlast, (getElem?_of_hasText htext).mpr hcell⟩
        · exact (hentry cell).mpr htext

example : (ofCells [["a", "b", "a"], ["", "x", ""]]).hasData = true ∧
    (ofCells [["a", "b", "a"], ["x", "", ""]]).hasData = false := by
  decide

/-- Below different names, in rows that are no longer than their row, each cell shows its text. -/
theorem IsAligned.showsTextBelow {rows : List (List String)} (h : IsAligned rows)
    (htext : HasTextBelow rows) : ShowsTextBelow rows := by
  rcases htext with ⟨row, hrow, cell, hcell, htext⟩
  rcases List.mem_iff_getElem?.mp hcell with ⟨i, hi⟩
  have hlt : i < (rows.headD []).length :=
    (List.getElem?_eq_some_iff.mp hi).1.trans_le (h.2 row hrow)
  refine ⟨row, hrow, i, (rows.headD [])[i], cell, List.getElem?_eq_getElem hlt, ?_, hi, htext⟩
  have hnodup := h.1.sublist (List.drop_sublist i (rows.headD []))
  rw [List.drop_eq_getElem_cons hlt] at hnodup
  exact (List.nodup_cons.mp hnodup).1

end SheetContent

/-!
## The file that was there
-/

theorem Archive.isPart_name {stem ending : String} (hstem : 2 ≤ stem.toList.length)
    (hplain : '/' ∉ stem.toList ++ ending.toList) (now : Moment) (taken : List String) :
    Path.IsPart (name stem ending now taken) := by
  have hlonger := length_lt_name stem ending now taken
  refine ⟨fun hempty => ?_, fun hdot => ?_, fun hslash => ?_⟩
  · rw [hempty] at hlonger
    exact absurd hlonger (Nat.not_lt_zero _)
  · rw [hdot] at hlonger
    have hone : ".".toList.length = 1 := rfl
    omega
  · rw [List.mem_append, not_or] at hplain
    rcases mem_name hslash with hmem | hmem | hmem | hmem
    · exact hplain.1 hmem
    · exact hplain.2 hmem
    · cases hmem
    · cases hmem

theorem Tree.IsTidy.find?_rename_of_ne {t : Tree} (ht : t.IsTidy) {old new : Path} {key : Key}
    {octets : ByteArray} (hfile : t.find? old.key = some (.file octets))
    (hfree : t.find? new.key = none) (hne : key ≠ old.key) (hthere : t.find? key ≠ none) :
    (t.rename old new).find? key = t.find? key := by
  have hbelow : ∀ above, t.find? above ≠ some .directory → above <+: key → key = above := by
    rintro above habove ⟨rest, rfl⟩
    by_contra hlonger
    exact hthere (ht.find?_below habove fun hnil => hlonger (by rw [hnil, List.append_nil]))
  refine Tree.find?_rename (fun hold => ?_) fun hnew => ?_
  · exact hne (hbelow _ (by rw [hfile]; exact fun heq => nomatch heq) hold)
  · refine hthere ?_
    rw [hbelow _ (by rw [hfree]; exact fun heq => nomatch heq) hnew, hfree]

/-- What was in a file is under the name that a preparation reports. -/
def Prepared.Archives (prepared : Prepared) (t : Tree) (octets : ByteArray) : Prop :=
  ∃ name, prepared.archivedTo = some name ∧ t.read (.ofText name) = .ok octets

namespace Sheet

variable {s : Sheet} {t t' : Tree} {octets : ByteArray} {fields : List String} {now : Moment}
  {prepared : Prepared}

theorem isFilled_eq_ok {filled : Bool} (hfile : t.find? s.path.key = some (.file octets))
    (h : s.isFilled t = .ok filled) :
    ∃ text cells, Text.decodeUtf8 octets = .ok text ∧
      Delimited.read s.format.delimiter text.toList = .ok cells ∧
      (filled = true ↔ SheetContent.ShowsTextBelow cells) := by
  rw [isFilled, if_pos (isFile_of_find? hfile fun heq => nomatch heq)] at h
  rcases Steps.map_eq_ok.mp h with ⟨content, hread, rfl⟩
  rcases Steps.bind_eq_ok.mp (Steps.mapError_eq_ok.mp hread) with ⟨found, hfound, hread⟩
  rw [Tree.read_of_find? hfile] at hfound
  cases hfound
  rcases Steps.bind_eq_ok.mp hread with ⟨text, htext, hread⟩
  rcases Steps.bind_eq_ok.mp hread with ⟨cells, hcells, hread⟩
  cases hread
  exact ⟨text, cells, Steps.mapError_eq_ok.mp htext, Steps.mapError_eq_ok.mp hcells,
    SheetContent.hasData_ofCells_iff⟩

theorem directory_of_file (ht : t.IsTidy) (hfile : t.find? s.path.key = some (.file octets)) :
    t.find? s.directory.key = some .directory := by
  have hkey : s.path.key = s.directory.key ++ [fileName s.format] :=
    Path.key_child (fileName_ne s.format).1 s.directory
  refine ht.find?_of_below (List.cons_ne_nil (fileName s.format) []) ?_
  rw [← hkey, hfile]
  exact Option.some_ne_none _

/-- Where a file is moved to: nothing has the name so far, and the name is read as it is written. -/
def archivePath (s : Sheet) (t : Tree) (now : Moment) : Path :=
  s.directory.child (Archive.name stem ("." ++ s.format.name) now (t.names s.directory))

theorem archivePath_free (s : Sheet) (t : Tree) (now : Moment) :
    t.find? (s.archivePath t now).key = none ∧ (s.archivePath t now).key ≠ s.path.key := by
  have hkey : s.path.key = s.directory.key ++ [fileName s.format] :=
    Path.key_child (fileName_ne s.format).1 s.directory
  have hlive : fileName s.format ∈ Store.liveNames := Store.mem_liveNames (fileName_mem s.format)
  rcases Archive.name_free (t := t) (Or.inl rfl) ("." ++ s.format.name) now
    (rfl : s.directory.key = s.directory.key) with ⟨hnotLive, hdots, -, hfree⟩
  rw [archivePath, Path.key_child hdots s.directory]
  refine ⟨hfree, ?_⟩
  rw [hkey, Ne, List.append_singleton_inj, not_and]
  exact fun _ heq => hnotLive (heq ▸ hlive)

theorem ofText_archivePath (hplain : s.directory.IsPlain) (t : Tree) (now : Moment) :
    Path.ofText (s.archivePath t now).text = s.archivePath t now := by
  refine Path.ofText_text (hplain.child (Archive.isPart_name (by decide) ?_ now _))
  cases s.format <;> decide

/-- Nothing but the file itself gives way to a new one. -/
theorem kept_of_prepare (ht : t.IsTidy) (hplain : s.directory.IsPlain)
    (hfile : t.find? s.path.key = some (.file octets))
    (h : s.prepare fields now t = .ok (prepared, t')) :
    (∃ filled, s.isFilled t = .ok filled ∧
      (filled = false ∧ prepared.archivedTo = none ∨
        filled = true ∧ prepared.Archives t' octets)) ∧
      ∀ key, key ≠ s.path.key → t.find? key ≠ none → t'.find? key = t.find? key := by
  rcases Steps.bind_eq_ok.mp h with ⟨⟨archived, moved⟩, harchive, h⟩
  rcases Steps.bind_eq_ok.mp h with ⟨written, hwrite, h⟩
  cases h
  rcases Steps.bind_eq_ok.mp harchive with ⟨filled, hfilled, harchive⟩
  have hdirectory := directory_of_file ht hfile
  cases filled with
  | false =>
      cases harchive
      rcases write_eq_put (isDirectory_iff.mpr hdirectory) hwrite with ⟨-, text, rfl⟩
      refine ⟨⟨false, hfilled, Or.inl ⟨rfl, rfl⟩⟩, fun key hne _ => ?_⟩
      exact find?_put_of_ne s.isEntryKey_path _ hne
  | true =>
      cases harchive
      rcases s.archivePath_free t now with ⟨hfree, hapart⟩
      have hread := ofText_archivePath hplain t now
      change s.writeOr (t.rename s.path (s.archivePath t now)) _ _ = _ at hwrite
      -- The archive had no entry before, so moving the file there hides nothing.
      have hkept : ∀ key, key ≠ s.path.key → t.find? key ≠ none →
          (t.rename s.path (s.archivePath t now)).find? key = t.find? key :=
        fun key hne hthere => ht.find?_rename_of_ne hfile hfree hne hthere
      have hstill : (t.rename s.path (s.archivePath t now)).isDirectory s.directory = true := by
        rw [isDirectory_iff, hkept _ (fun heq => ?_) (hdirectory ▸ Option.some_ne_none _), hdirectory]
        rw [heq, hfile] at hdirectory
        cases hdirectory
      rcases write_eq_put hstill hwrite with ⟨-, text, rfl⟩
      refine ⟨⟨true, hfilled, Or.inr ⟨rfl, (s.archivePath t now).text, rfl, ?_⟩⟩,
        fun key hne hthere => ?_⟩
      · rw [hread]
        refine Tree.read_of_find? ?_
        rw [find?_put_of_ne s.isEntryKey_path _ hapart, ht.find?_rename s.isEntryKey_path hfree,
          if_pos (List.prefix_refl _), List.drop_length, List.append_nil, hfile]
      · rw [find?_put_of_ne s.isEntryKey_path _ hne, hkept key hne hthere]

end Sheet

namespace Backend

theorem prepare_file_eq_ok {directory : Path} {schema : Schema} {options : Entries} {now : Moment}
    {t t' : Tree} {prepared : Prepared} {format : SheetFormat}
    (hformat : SheetFormat.ofName? (formatOption options) = some format)
    (h : (Backend.file.prepare directory schema options now).run t = (.ok prepared, t')) :
    Sheet.prepare ⟨directory, format⟩ schema.fields now t = .ok (prepared, t') := by
  rw [prepare] at h
  simp only [hformat] at h
  exact Preparation.run_ofChange_eq_ok.mp h

/-- A file that a successful preparation replaces was readable.  What was in it is under the reported
name when a cell shows text, and nothing is reported when none does.  Where the cells are aligned,
a file that is not archived has no text below its first row.  Nothing else is touched. -/
theorem archives_of_prepare {directory : Path} (hplain : directory.IsPlain) {t t' : Tree}
    (ht : t.IsTidy) {schema : Schema} {options : Entries} {now : Moment} {format : SheetFormat}
    (hformat : SheetFormat.ofName? (formatOption options) = some format) {octets : ByteArray}
    (hfile : t.find? (Sheet.path ⟨directory, format⟩).key = some (.file octets))
    {prepared : Prepared}
    (h : (Backend.file.prepare directory schema options now).run t = (.ok prepared, t')) :
    (∃ text cells, Text.decodeUtf8 octets = .ok text ∧
      Delimited.read format.delimiter text.toList = .ok cells ∧
      (prepared.Archives t' octets ∧ SheetContent.ShowsTextBelow cells ∨
        prepared.archivedTo = none ∧ ¬SheetContent.ShowsTextBelow cells) ∧
      (SheetContent.IsAligned cells →
        prepared.Archives t' octets ∨ ¬SheetContent.HasTextBelow cells)) ∧
      ∀ key, key ≠ (Sheet.path ⟨directory, format⟩).key → t.find? key ≠ none →
        t'.find? key = t.find? key := by
  rcases Sheet.kept_of_prepare ht hplain hfile (prepare_file_eq_ok hformat h) with
    ⟨⟨filled, hfilled, houtcome⟩, hkept⟩
  rcases Sheet.isFilled_eq_ok hfile hfilled with ⟨text, cells, htext, hcells, hshows⟩
  refine ⟨⟨text, cells, htext, hcells, ?_, fun haligned => ?_⟩, hkept⟩
  · rcases houtcome with ⟨rfl, hnone⟩ | ⟨rfl, harchives⟩
    · exact Or.inr ⟨hnone, mt hshows.mpr Bool.false_ne_true⟩
    · exact Or.inl ⟨harchives, hshows.mp rfl⟩
  · rcases houtcome with ⟨rfl, -⟩ | ⟨-, harchives⟩
    · exact Or.inr fun htext => Bool.false_ne_true (hshows.mpr (haligned.showsTextBelow htext))
    · exact Or.inl harchives

/-- A file with one user, beside which nothing is. -/
def filledTree : Tree :=
  Tree.put {} ["users.tsv"] (.file "user_id\tnote\nada\tx\n".toUTF8)

theorem archives_of_prepare_of_filledTree :
    ∃ prepared t', (Backend.file.prepare (.ofText "") Registry.noteSchema [] 0).run filledTree =
        (.ok prepared, t') ∧ prepared.Archives t' "user_id\tnote\nada\tx\n".toUTF8 := by
  have hdone : ((Backend.file.prepare (.ofText "") Registry.noteSchema [] 0).run
      filledTree).1.isOk = true := by
    decide +kernel
  have htidy : filledTree.IsTidy := by
    change (Tree.put {} ([] ++ ["users.tsv"]) _).IsTidy
    refine isTidy_empty.put (by decide) rfl (Or.inr ?_) ?_
    · rw [find?_empty ⟨by decide, by decide⟩]
      exact fun heq => nomatch heq
    · exact fun serial db heq => nomatch heq
  have hread : Delimited.read SheetFormat.tsv.delimiter "user_id\tnote\nada\tx\n".toList =
      .ok [["user_id", "note"], ["ada", "x"]] := by
    decide +kernel
  rcases hrun : (Backend.file.prepare (.ofText "") Registry.noteSchema [] 0).run filledTree with
    ⟨_ | prepared, t'⟩
  · rw [hrun] at hdone
    cases hdone
  · refine ⟨prepared, t', rfl, ?_⟩
    have hformat : SheetFormat.ofName? (formatOption []) = some .tsv := by
      decide +kernel
    rcases archives_of_prepare (Path.isPlain_ofText "") htidy hformat rfl hrun with
      ⟨⟨text, cells, htext, hcells, -, haligned⟩, -⟩
    rw [Text.decodeUtf8_toUTF8] at htext
    cases htext
    rw [hread] at hcells
    cases hcells
    refine (haligned ⟨by decide, by decide⟩).resolve_right fun hnone => hnone ?_
    exact ⟨["ada", "x"], List.mem_singleton.mpr rfl, "ada", List.mem_cons_self, by decide⟩

end Backend
end Roster
