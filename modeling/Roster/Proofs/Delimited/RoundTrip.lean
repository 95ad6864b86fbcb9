import Mathlib.Data.List.Basic
import Roster.Delimited.Format
import Roster.Delimited.Reader

/-!
# Delimited text is read back as it was written

The reader goes through a written row cell by cell.  Each lemma follows it from the start of a cell
to the delimiter or line end behind it, whatever rows and cells it has seen before.
-/

namespace Roster
namespace Delimited

/-- The delimiter means nothing else. -/
def IsDelimiter (d : Char) : Prop :=
  d ≠ '"' ∧ d ≠ '\r' ∧ d ≠ '\n'

/-- No cell is longer than the reader takes. -/
def Fits (cells : List String) : Prop :=
  ∀ cell ∈ cells, cell.toList.length ≤ maxCell

instance (cells : List String) : Decidable (Fits cells) :=
  inferInstanceAs (Decidable (∀ cell ∈ cells, _ ≤ _))

/-- The reader goes on through some characters. -/
def readOn (d : Char) (r : Reading) (cs : List Char) : Except CellTooLong Reading :=
  cs.foldlM (Reading.step d) r

theorem readOn_append (d : Char) (r : Reading) (front back : List Char) :
    readOn d r (front ++ back) = (readOn d r front).bind fun r => readOn d r back :=
  List.foldlM_append

theorem readOn_cons (d : Char) (r : Reading) (c : Char) (cs : List Char) :
    readOn d r (c :: cs) = (Reading.step d r c).bind fun r => readOn d r cs :=
  List.foldlM_cons

theorem readOn_append_of_ok {d : Char} {r r' : Reading} {front back : List Char}
    (h : readOn d r front = .ok r') : readOn d r (front ++ back) = readOn d r' back := by
  rw [readOn_append, h]
  rfl

theorem readOn_cons_of_ok {d c : Char} {r r' : Reading} {cs : List Char}
    (h : Reading.step d r c = .ok r') : readOn d r (c :: cs) = readOn d r' cs := by
  rw [readOn_cons, h]
  rfl

/-!
## Inside a cell
-/

def Mode.IsStart (m : Mode) : Prop :=
  m = .rowStart ∨ m = .afterReturn ∨ m = .cellStart

theorem needsQuotes_eq_false_iff {d c : Char} :
    needsQuotes d c = false ↔ c ≠ d ∧ c ≠ '"' ∧ c ≠ '\r' ∧ c ≠ '\n' := by
  simp [needsQuotes, and_assoc]

theorem add_of_lt {r : Reading} {c : Char} {m : Mode} (h : r.length < maxCell) :
    r.add c m = .ok { r with mode := m, cell := c :: r.cell, length := r.length + 1 } := by
  rw [Reading.add, if_neg (Nat.not_le.mpr h)]

theorem step_plain {d c : Char} {r : Reading} (hmode : r.mode.IsStart ∨ r.mode = .inCell)
    (hplain : needsQuotes d c = false) (hroom : r.length < maxCell) :
    Reading.step d r c =
      .ok { r with mode := .inCell, cell := c :: r.cell, length := r.length + 1 } := by
  rcases needsQuotes_eq_false_iff.mp hplain with ⟨hd, hquote, hreturn, hline⟩
  have hadd := add_of_lt (c := c) (m := .inCell) hroom
  rcases hmode with (hmode | hmode | hmode) | hmode
  · simp [Reading.step, hmode, Reading.stepRow, Reading.stepStart, Reading.stepPlain, hd, hquote,
      hreturn, hline, hadd]
  · simp [Reading.step, hmode, Reading.stepRow, Reading.stepStart, Reading.stepPlain, hd, hquote,
      hreturn, hline, hadd]
  · simp [Reading.step, hmode, Reading.stepStart, Reading.stepPlain, hd, hquote, hreturn, hline,
      hadd]
  · simp [Reading.step, hmode, Reading.stepPlain, hd, hreturn, hline, hadd]

theorem readOn_plain {d : Char} {cell : List Char} {n : Nat}
    (hplain : ∀ c ∈ cell, needsQuotes d c = false) (hroom : n + cell.length ≤ maxCell)
    (seen : List Char) (cells : List String) (rows : List (List String)) :
    readOn d ⟨.inCell, seen, n, cells, rows⟩ cell =
      .ok ⟨.inCell, cell.reverse ++ seen, n + cell.length, cells, rows⟩ := by
  induction cell generalizing seen n with
  | nil => rfl
  | cons c rest ih =>
      rw [List.length_cons] at hroom
      have hstep := step_plain (d := d) (c := c) (r := ⟨.inCell, seen, n, cells, rows⟩)
        (Or.inr rfl) (hplain c List.mem_cons_self) (by change n < maxCell; omega)
      rw [readOn_cons_of_ok hstep]
      have hrest := ih (n := n + 1) (fun c hmem => hplain c (List.mem_cons_of_mem _ hmem))
        (by omega) (c :: seen)
      rw [hrest, List.reverse_cons, List.append_assoc, List.singleton_append, List.length_cons,
        Nat.add_right_comm, Nat.add_assoc]

theorem readOn_quoted (d : Char) {cell : List Char} {n : Nat} (hroom : n + cell.length ≤ maxCell)
    (seen : List Char) (cells : List String) (rows : List (List String)) :
    readOn d ⟨.inQuotes, seen, n, cells, rows⟩ (cell.flatMap escapeQuote) =
      .ok ⟨.inQuotes, cell.reverse ++ seen, n + cell.length, cells, rows⟩ := by
  induction cell generalizing seen n with
  | nil => rfl
  | cons c rest ih =>
      rw [List.length_cons] at hroom
      have hone : readOn d ⟨.inQuotes, seen, n, cells, rows⟩ (escapeQuote c) =
          .ok ⟨.inQuotes, c :: seen, n + 1, cells, rows⟩ := by
        have hlt : n < maxCell := by omega
        by_cases hquote : c = '"'
        · subst hquote
          have hopen : Reading.step d ⟨.inQuotes, seen, n, cells, rows⟩ '"' =
              .ok ⟨.afterQuote, seen, n, cells, rows⟩ := rfl
          have hadd : Reading.step d ⟨.afterQuote, seen, n, cells, rows⟩ '"' =
              .ok ⟨.inQuotes, '"' :: seen, n + 1, cells, rows⟩ :=
            add_of_lt (r := ⟨.afterQuote, seen, n, cells, rows⟩) hlt
          change readOn d _ ['"', '"'] = _
          rw [readOn_cons_of_ok hopen, readOn_cons_of_ok hadd]
          rfl
        · have hadd : Reading.step d ⟨.inQuotes, seen, n, cells, rows⟩ c =
              .ok ⟨.inQuotes, c :: seen, n + 1, cells, rows⟩ := by
            simp [Reading.step, hquote, add_of_lt (r := ⟨.inQuotes, seen, n, cells, rows⟩) hlt]
          have hwritten : escapeQuote c = [c] := by simp [escapeQuote, hquote]
          rw [hwritten, readOn_cons_of_ok hadd]
          rfl
      rw [List.flatMap_cons, readOn_append_of_ok hone, ih (by omega), List.reverse_cons,
        List.append_assoc, List.singleton_append, List.length_cons, Nat.add_right_comm,
        Nat.add_assoc]

/-- Where the reader stands behind a written cell. -/
def modeBehind (d : Char) (m : Mode) (cell : List Char) : Mode :=
  if cell.any (needsQuotes d) then .afterQuote
  else if cell.isEmpty then m
  else .inCell

theorem readOn_writeCell (d : Char) {m : Mode} {cell : List Char} (hstart : m.IsStart)
    (hroom : cell.length ≤ maxCell) (cells : List String) (rows : List (List String)) :
    readOn d ⟨m, [], 0, cells, rows⟩ (writeCell d cell) =
      .ok ⟨modeBehind d m cell, cell.reverse, cell.length, cells, rows⟩ := by
  by_cases hany : cell.any (needsQuotes d) = true
  · have hopen : Reading.step d ⟨m, [], 0, cells, rows⟩ '"' =
        .ok ⟨.inQuotes, [], 0, cells, rows⟩ := by
      rcases hstart with rfl | rfl | rfl <;> rfl
    have hinside : readOn d ⟨.inQuotes, [], 0, cells, rows⟩ (cell.flatMap escapeQuote) =
        .ok ⟨.inQuotes, cell.reverse, cell.length, cells, rows⟩ := by
      rw [readOn_quoted d (by omega), List.append_nil, Nat.zero_add]
    rw [writeCell, if_pos hany, quoteCell, List.cons_append, readOn_cons_of_ok hopen,
      readOn_append_of_ok hinside, modeBehind, if_pos hany]
    rfl
  · have hplain : ∀ c ∈ cell, needsQuotes d c = false := by
      simpa using hany
    rw [writeCell, if_neg hany, modeBehind, if_neg hany]
    cases cell with
    | nil => rfl
    | cons c rest =>
        rw [List.length_cons] at hroom
        have hstep := step_plain (d := d) (c := c) (r := ⟨m, [], 0, cells, rows⟩) (Or.inl hstart)
          (hplain c List.mem_cons_self) (by change 0 < maxCell; omega)
        rw [readOn_cons_of_ok hstep]
        have hrest := readOn_plain (n := 1) (fun c hmem => hplain c (List.mem_cons_of_mem _ hmem))
          (by omega) [c] cells rows
        simp only [Nat.zero_add]
        rw [hrest, List.reverse_cons, List.length_cons, Nat.add_comm]
        rfl

/-!
## Behind a cell
-/

theorem step_delimiter {d : Char} (hd : IsDelimiter d) {m : Mode} (hmode : m ≠ .inQuotes)
    (seen : List Char) (n : Nat) (cells : List String) (rows : List (List String)) :
    Reading.step d ⟨m, seen, n, cells, rows⟩ d =
      .ok ⟨.cellStart, [], 0, String.ofList seen.reverse :: cells, rows⟩ := by
  rcases hd with ⟨hquote, hreturn, hline⟩
  cases m with
  | inQuotes => exact absurd rfl hmode
  | rowStart =>
      simp [Reading.step, Reading.stepRow, Reading.stepStart, Reading.stepPlain, Reading.endCell,
        hquote, hreturn, hline]
  | afterReturn =>
      simp [Reading.step, Reading.stepRow, Reading.stepStart, Reading.stepPlain, Reading.endCell,
        hquote, hreturn, hline]
  | cellStart =>
      simp [Reading.step, Reading.stepStart, Reading.stepPlain, Reading.endCell, hquote, hreturn,
        hline]
  | inCell => simp [Reading.step, Reading.stepPlain, Reading.endCell, hreturn, hline]
  | afterQuote => simp [Reading.step, Reading.stepPlain, Reading.endCell, hquote, hreturn, hline]

theorem readOn_lineEnd {d : Char} {m : Mode}
    (hmode : m = .cellStart ∨ m = .inCell ∨ m = .afterQuote)
    (seen : List Char) (n : Nat) (cells : List String) (rows : List (List String)) :
    readOn d ⟨m, seen, n, cells, rows⟩ ['\r', '\n'] =
      .ok ⟨.rowStart, [], 0, [], (String.ofList seen.reverse :: cells).reverse :: rows⟩ := by
  rcases hmode with rfl | rfl | rfl <;> rfl

theorem modeBehind_ne_inQuotes {d : Char} {m : Mode} (hstart : m.IsStart) (cell : List Char) :
    modeBehind d m cell ≠ .inQuotes := by
  unfold modeBehind
  rcases hstart with rfl | rfl | rfl <;> split <;> try split
  all_goals decide

/-- Behind a cell that is not the first of its row, or that is not empty, a line end ends a cell. -/
theorem modeBehind_endsCell {d : Char} {m : Mode} {cell : List Char}
    (h : m = .cellStart ∨ cell ≠ []) :
    modeBehind d m cell = .cellStart ∨ modeBehind d m cell = .inCell ∨
      modeBehind d m cell = .afterQuote := by
  unfold modeBehind
  split
  · exact Or.inr (Or.inr rfl)
  · split
    · rename_i _ hempty
      rcases h with hcell | hne
      · exact Or.inl hcell
      · exact absurd (List.isEmpty_iff.mp hempty) hne
    · exact Or.inr (Or.inl rfl)

/-!
## Rows
-/

theorem readOn_writeCells {d : Char} (hd : IsDelimiter d) {m : Mode} {row seen : List String}
    {rows : List (List String)} (hstart : m.IsStart) (hfits : Fits row) (hne : row ≠ [])
    (hclosed : m = .cellStart ∨ row ≠ [""]) :
    readOn d ⟨m, [], 0, seen, rows⟩ (writeCells d row ++ ['\r', '\n']) =
      .ok ⟨.rowStart, [], 0, [], (seen.reverse ++ row) :: rows⟩ := by
  induction row generalizing m seen with
  | nil => exact absurd rfl hne
  | cons cell rest ih =>
      have hcell := readOn_writeCell d hstart (hfits cell List.mem_cons_self) seen rows
      cases rest with
      | nil =>
          have hends : m = .cellStart ∨ cell.toList ≠ [] := by
            refine hclosed.imp_right fun hrow hempty => hrow ?_
            rw [String.toList_eq_nil_iff.mp hempty]
          rw [writeCells, readOn_append_of_ok hcell, readOn_lineEnd (modeBehind_endsCell hends)]
          simp
      | cons next more =>
          have hfitsRest : Fits (next :: more) := fun c hmem =>
            hfits c (List.mem_cons_of_mem _ hmem)
          have hstep := step_delimiter hd (modeBehind_ne_inQuotes (d := d) hstart cell.toList)
            cell.toList.reverse cell.toList.length seen rows
          rw [writeCells, List.append_assoc, readOn_append_of_ok hcell, List.cons_append,
            readOn_cons_of_ok hstep, ih (Or.inr (Or.inr rfl)) hfitsRest (List.cons_ne_nil _ _)
              (Or.inl rfl)]
          · simp
          · exact fun h => nomatch h

theorem readOn_writeRow {d : Char} (hd : IsDelimiter d) {m : Mode} {row : List String}
    (hstart : m = .rowStart ∨ m = .afterReturn) (hfits : Fits row) (rows : List (List String)) :
    readOn d ⟨m, [], 0, [], rows⟩ (writeRow d row) = .ok ⟨.rowStart, [], 0, [], row :: rows⟩ := by
  have hIsStart : m.IsStart := hstart.imp_right Or.inl
  by_cases hsingle : row = [""]
  · subst hsingle
    rcases hstart with rfl | rfl <;> rfl
  · have hbeq : ¬(row == [""]) = true := by simpa using hsingle
    rw [writeRow, if_neg hbeq]
    cases row with
    | nil => rcases hstart with rfl | rfl <;> rfl
    | cons cell rest =>
        exact readOn_writeCells hd hIsStart hfits (List.cons_ne_nil _ _) (Or.inr hsingle)

theorem readOn_writeRows {d : Char} (hd : IsDelimiter d) {written : List (List String)}
    (hfits : ∀ row ∈ written, Fits row) (rows : List (List String)) :
    readOn d ⟨.rowStart, [], 0, [], rows⟩ (writeRows d written) =
      .ok ⟨.rowStart, [], 0, [], written.reverse ++ rows⟩ := by
  induction written generalizing rows with
  | nil => rfl
  | cons row rest ih =>
      have hrow := readOn_writeRow hd (Or.inl rfl) (hfits row List.mem_cons_self) rows
      have hrest := ih (fun row hmem => hfits row (List.mem_cons_of_mem _ hmem)) (row :: rows)
      rw [writeRows, List.flatMap_cons, readOn_append_of_ok hrow]
      rw [writeRows] at hrest
      rw [hrest, List.reverse_cons, List.append_assoc, List.singleton_append]

/-- Reading what was written gives the rows back. -/
theorem read_writeRows {d : Char} (hd : IsDelimiter d) {rows : List (List String)}
    (hfits : ∀ row ∈ rows, Fits row) : read d (writeRows d rows) = .ok rows := by
  have hread := readOn_writeRows hd hfits []
  have hfinish : Reading.finish ⟨.rowStart, [], 0, [], rows.reverse ++ []⟩ = rows := by
    simp [Reading.finish]
  unfold readOn at hread
  unfold read
  rw [show ({} : Reading) = ⟨.rowStart, [], 0, [], []⟩ from rfl, hread]
  exact congrArg Except.ok hfinish

theorem writeRows_append (d : Char) (front back : List (List String)) :
    writeRows d (front ++ back) = writeRows d front ++ writeRows d back :=
  List.flatMap_append

/-!
## Cells that are too long
-/

theorem readOn_append_of_error {d : Char} {r : Reading} {front : List Char} {e : CellTooLong}
    (h : readOn d r front = .error e) (back : List Char) :
    readOn d r (front ++ back) = .error e := by
  rw [readOn_append, h]
  rfl

theorem readOn_cons_of_error {d c : Char} {r : Reading} {e : CellTooLong}
    (h : Reading.step d r c = .error e) (cs : List Char) : readOn d r (c :: cs) = .error e := by
  rw [readOn_cons, h]
  rfl

theorem add_of_full {r : Reading} (h : r.length = maxCell) (c : Char) (m : Mode) :
    r.add c m = .error {} := by
  rw [Reading.add, if_pos (Nat.le_of_eq h.symm)]

theorem readOn_plain_of_full {d c : Char} {seen : List Char} {cells : List String}
    {rows : List (List String)} (hplain : needsQuotes d c = false) (back : List Char) :
    readOn d ⟨.inCell, seen, maxCell, cells, rows⟩ (c :: back) = .error {} := by
  rcases needsQuotes_eq_false_iff.mp hplain with ⟨hd, hquote, hreturn, hline⟩
  refine readOn_cons_of_error ?_ back
  simp [Reading.step, Reading.stepPlain, hd, hreturn, hline, add_of_full]

theorem readOn_quoted_of_full {d : Char} {seen : List Char} {cells : List String}
    {rows : List (List String)} (c : Char) (back : List Char) :
    readOn d ⟨.inQuotes, seen, maxCell, cells, rows⟩ (escapeQuote c ++ back) = .error {} := by
  by_cases hquote : c = '"'
  · subst hquote
    have hopen : Reading.step d ⟨.inQuotes, seen, maxCell, cells, rows⟩ '"' =
        .ok ⟨.afterQuote, seen, maxCell, cells, rows⟩ := rfl
    have hfull : Reading.step d ⟨.afterQuote, seen, maxCell, cells, rows⟩ '"' = .error {} :=
      add_of_full (r := ⟨.afterQuote, seen, maxCell, cells, rows⟩) rfl '"' .inQuotes
    change readOn d _ ('"' :: '"' :: back) = _
    rw [readOn_cons_of_ok hopen, readOn_cons_of_error hfull]
  · have hwritten : escapeQuote c = [c] := by simp [escapeQuote, hquote]
    rw [hwritten]
    refine readOn_cons_of_error ?_ back
    simp [Reading.step, hquote, add_of_full]

theorem readOn_quoteCell_of_long (d : Char) {m : Mode} {cell : List Char} (hstart : m.IsStart)
    (hlong : maxCell < cell.length) (cells : List String) (rows : List (List String)) :
    readOn d ⟨m, [], 0, cells, rows⟩ (quoteCell cell) = .error {} := by
  have hopen : Reading.step d ⟨m, [], 0, cells, rows⟩ '"' =
      .ok ⟨.inQuotes, [], 0, cells, rows⟩ := by
    rcases hstart with rfl | rfl | rfl <;> rfl
  have hlength := List.length_take_of_le (Nat.le_of_lt hlong)
  have hfront := readOn_quoted d (n := 0) (Nat.le_of_eq ((Nat.zero_add _).trans hlength)) []
    cells rows
  rw [Nat.zero_add, hlength] at hfront
  have hcell : cell = cell.take maxCell ++ cell[maxCell] :: cell.drop (maxCell + 1) := by
    rw [List.getElem_cons_drop, List.take_append_drop]
  rw [quoteCell, List.cons_append, readOn_cons_of_ok hopen]
  refine readOn_append_of_error ?_ _
  rw [hcell, List.flatMap_append, List.flatMap_cons, readOn_append_of_ok hfront,
    readOn_quoted_of_full]

theorem readOn_plainCell_of_long (d : Char) {m : Mode} {cell : List Char} (hstart : m.IsStart)
    (hplain : ∀ c ∈ cell, needsQuotes d c = false) (hlong : maxCell < cell.length)
    (cells : List String) (rows : List (List String)) :
    readOn d ⟨m, [], 0, cells, rows⟩ cell = .error {} := by
  cases cell with
  | nil => exact absurd hlong (Nat.not_lt_zero _)
  | cons c rest =>
      rw [List.length_cons] at hlong
      have hroom : maxCell - 1 < rest.length := by
        have hpositive : 0 < maxCell := by decide
        omega
      have hstep := step_plain (d := d) (c := c) (r := ⟨m, [], 0, cells, rows⟩) (Or.inl hstart)
        (hplain c List.mem_cons_self) (by change 0 < maxCell; decide)
      have hlength := List.length_take_of_le (Nat.le_of_lt hroom)
      have htaken : ∀ c ∈ rest.take (maxCell - 1), needsQuotes d c = false := fun c hmem =>
        hplain c (List.mem_cons_of_mem _ (List.mem_of_mem_take hmem))
      have hfull : 1 + (rest.take (maxCell - 1)).length ≤ maxCell := by
        rw [hlength]
        decide
      have hfront := readOn_plain htaken hfull [c] cells rows
      rw [hlength] at hfront
      have hrest : rest =
          rest.take (maxCell - 1) ++ rest[maxCell - 1] :: rest.drop (maxCell - 1 + 1) := by
        rw [List.getElem_cons_drop, List.take_append_drop]
      rw [readOn_cons_of_ok hstep, hrest]
      simp only [Nat.zero_add]
      rw [readOn_append_of_ok hfront]
      exact readOn_plain_of_full
        (hplain _ (List.mem_cons_of_mem _ (List.getElem_mem hroom))) _

theorem readOn_writeCell_of_long (d : Char) {m : Mode} {cell : List Char} (hstart : m.IsStart)
    (hlong : maxCell < cell.length) (cells : List String) (rows : List (List String)) :
    readOn d ⟨m, [], 0, cells, rows⟩ (writeCell d cell) = .error {} := by
  by_cases hany : cell.any (needsQuotes d) = true
  · rw [writeCell, if_pos hany]
    exact readOn_quoteCell_of_long d hstart hlong cells rows
  · rw [writeCell, if_neg hany]
    exact readOn_plainCell_of_long d hstart (by simpa using hany) hlong cells rows

theorem readOn_writeCells_of_long {d : Char} (hd : IsDelimiter d) {m : Mode}
    {row seen : List String} {rows : List (List String)} (hstart : m.IsStart)
    (hlong : ¬Fits row) : readOn d ⟨m, [], 0, seen, rows⟩ (writeCells d row) = .error {} := by
  induction row generalizing m seen with
  | nil => exact absurd (fun cell hcell => nomatch hcell) hlong
  | cons cell rest ih =>
      by_cases hcell : cell.toList.length ≤ maxCell
      · have hread := readOn_writeCell d hstart hcell seen rows
        have hrest : ¬Fits rest := by
          refine fun hfits => hlong fun other hother => ?_
          rcases List.mem_cons.mp hother with rfl | hmem
          · exact hcell
          · exact hfits other hmem
        cases rest with
        | nil => exact absurd (fun cell hcell => nomatch hcell) hrest
        | cons next more =>
            have hstep := step_delimiter hd (modeBehind_ne_inQuotes (d := d) hstart cell.toList)
              cell.toList.reverse cell.toList.length seen rows
            rw [writeCells, readOn_append_of_ok hread, readOn_cons_of_ok hstep,
              ih (Or.inr (Or.inr rfl)) hrest]
            exact fun h => nomatch h
      · have hread := readOn_writeCell_of_long d hstart (Nat.not_le.mp hcell) seen rows
        cases rest with
        | nil => rw [writeCells, hread]
        | cons next more =>
            rw [writeCells, readOn_append_of_error hread]
            exact fun h => nomatch h

theorem readOn_writeRow_of_long {d : Char} (hd : IsDelimiter d) {m : Mode} {row : List String}
    (hstart : m = .rowStart ∨ m = .afterReturn) (hlong : ¬Fits row) (rows : List (List String)) :
    readOn d ⟨m, [], 0, [], rows⟩ (writeRow d row) = .error {} := by
  have hsingle : ¬(row == [""]) = true := by
    rw [beq_iff_eq]
    rintro rfl
    exact hlong fun cell hcell => by simp [List.mem_singleton.mp hcell]
  rw [writeRow, if_neg hsingle]
  exact readOn_append_of_error (readOn_writeCells_of_long hd (hstart.imp_right Or.inl) hlong) _

theorem readOn_writeRows_of_long {d : Char} (hd : IsDelimiter d) {written : List (List String)}
    (hlong : ¬∀ row ∈ written, Fits row) (rows : List (List String)) :
    readOn d ⟨.rowStart, [], 0, [], rows⟩ (writeRows d written) = .error {} := by
  induction written generalizing rows with
  | nil => exact absurd (fun row hrow => nomatch hrow) hlong
  | cons row rest ih =>
      rw [writeRows, List.flatMap_cons]
      by_cases hrow : Fits row
      · have hrest : ¬∀ row ∈ rest, Fits row := by
          refine fun hfits => hlong fun other hother => ?_
          rcases List.mem_cons.mp hother with rfl | hmem
          · exact hrow
          · exact hfits other hmem
        rw [readOn_append_of_ok (readOn_writeRow hd (Or.inl rfl) hrow rows)]
        exact ih hrest _
      · exact readOn_append_of_error (readOn_writeRow_of_long hd (Or.inl rfl) hrow rows) _

/-- What was written with a cell that is too long is not read back. -/
theorem read_writeRows_of_long {d : Char} (hd : IsDelimiter d) {rows : List (List String)}
    (hlong : ¬∀ row ∈ rows, Fits row) : read d (writeRows d rows) = .error {} := by
  have hread := readOn_writeRows_of_long hd hlong []
  unfold readOn at hread
  unfold read
  rw [show ({} : Reading) = ⟨.rowStart, [], 0, [], []⟩ from rfl, hread]
  rfl

end Delimited
end Roster
