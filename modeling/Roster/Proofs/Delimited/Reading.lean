import Roster.Proofs.Delimited.RoundTrip

/-!
# What the reader has at hand

Between two rows the reader has nothing at hand but the rows behind it, so a row that is written
there is read as if it stood in a text of its own.  No cell that was read is longer than a cell may
be.
-/

namespace Roster
namespace Delimited

/-- The reader stands between two rows. -/
def Mode.IsBetween (m : Mode) : Prop :=
  m = .rowStart ∨ m = .afterReturn

/-- The text ends where a row does: it is empty, or its last character is a line end outside
quotes. -/
def EndsRow (d : Char) (cs : List Char) : Prop :=
  ∃ r, readOn d {} cs = .ok r ∧ r.mode.IsBetween

instance (m : Mode) : Decidable m.IsBetween :=
  inferInstanceAs (Decidable (_ ∨ _))

instance (d : Char) (cs : List Char) : Decidable (EndsRow d cs) :=
  match h : readOn d {} cs with
  | .ok r => decidable_of_iff r.mode.IsBetween <| by simp [EndsRow, h]
  | .error _ => isFalse <| by simp [EndsRow, h]

/-!
## One character
-/

/-- What the reader has counted and kept, and that it has nothing of a row when it is between two
rows. -/
structure Reading.IsTidy (r : Reading) : Prop where
  counted : r.length = r.cell.length
  short : r.length ≤ maxCell
  cells : Fits r.cells
  rows : ∀ row ∈ r.rows, Fits row
  between : r.mode.IsBetween → r.cell = [] ∧ r.cells = []

namespace Reading.IsTidy

variable {d c : Char} {r r' : Reading}

theorem start : Reading.IsTidy {} where
  counted := rfl
  short := Nat.zero_le _
  cells := fun _ hcell => nomatch hcell
  rows := fun _ hrow => nomatch hrow
  between := fun _ => ⟨rfl, rfl⟩

theorem add (h : r.IsTidy) {m : Mode} (hinside : ¬m.IsBetween) (hadd : r.add c m = .ok r') :
    r'.IsTidy := by
  rw [Reading.add] at hadd
  split at hadd
  · cases hadd
  · rename_i hroom
    cases hadd
    exact ⟨congrArg (· + 1) h.counted, Nat.lt_of_not_le hroom, h.cells, h.rows,
      fun hbetween => absurd hbetween hinside⟩

theorem endCell (h : r.IsTidy) : (r.endCell .cellStart).IsTidy where
  counted := rfl
  short := Nat.zero_le _
  cells := by
    intro cell hcell
    rcases List.mem_cons.mp hcell with rfl | hold
    · rw [String.toList_ofList, List.length_reverse, ← h.counted]
      exact h.short
    · exact h.cells cell hold
  rows := h.rows
  between := fun hbetween => by
    rcases hbetween with hmode | hmode
    · cases hmode
    · cases hmode

theorem endRow (h : r.IsTidy) (hcell : r.cell = []) (m : Mode) : (r.endRow m).IsTidy where
  counted := h.counted
  short := h.short
  cells := fun _ hcell => nomatch hcell
  rows := by
    intro row hrow
    rcases List.mem_cons.mp hrow with rfl | hold
    · exact fun cell hcell => h.cells cell (List.mem_reverse.mp hcell)
    · exact h.rows row hold
  between := fun _ => ⟨hcell, rfl⟩

theorem mode (h : r.IsTidy) {m : Mode} (hm : m.IsBetween → r.mode.IsBetween) :
    IsTidy { r with mode := m } :=
  ⟨h.counted, h.short, h.cells, h.rows, fun hbetween => h.between (hm hbetween)⟩

theorem stepPlain (h : r.IsTidy) (hstep : r.stepPlain d c = .ok r') : r'.IsTidy := by
  rw [Reading.stepPlain] at hstep
  split at hstep
  · cases hstep
    exact h.endCell.endRow rfl _
  · split at hstep
    · cases hstep
      exact h.endCell
    · exact h.add (by simp [Mode.IsBetween]) hstep

theorem stepStart (h : r.IsTidy) (hstep : r.stepStart d c = .ok r') : r'.IsTidy := by
  rw [Reading.stepStart] at hstep
  split at hstep
  · cases hstep
    exact h.mode (by simp [Mode.IsBetween])
  · exact h.stepPlain hstep

theorem stepRow (h : r.IsTidy) (hbetween : r.mode.IsBetween) (hstep : r.stepRow d c = .ok r') :
    r'.IsTidy := by
  rw [Reading.stepRow] at hstep
  split at hstep
  · cases hstep
    exact h.endRow (h.between hbetween).1 _
  · exact h.stepStart hstep

theorem step (h : r.IsTidy) (hstep : Reading.step d r c = .ok r') : r'.IsTidy := by
  unfold Reading.step at hstep
  split at hstep
  · rename_i hmode
    exact h.stepRow (Or.inl hmode) hstep
  · rename_i hmode
    split at hstep
    · cases hstep
      exact h.mode fun _ => Or.inr hmode
    · exact h.stepRow (Or.inr hmode) hstep
  · exact h.stepStart hstep
  · exact h.stepPlain hstep
  · split at hstep
    · cases hstep
      exact h.mode (by simp [Mode.IsBetween])
    · exact h.add (by simp [Mode.IsBetween]) hstep
  · split at hstep
    · exact h.add (by simp [Mode.IsBetween]) hstep
    · exact h.stepPlain hstep

theorem readOn {cs : List Char} (h : r.IsTidy) (hread : Delimited.readOn d r cs = .ok r') :
    r'.IsTidy := by
  induction cs generalizing r with
  | nil =>
      cases hread
      exact h
  | cons c rest ih =>
      rw [readOn_cons] at hread
      cases hstep : Reading.step d r c with
      | error long =>
          rw [hstep] at hread
          cases hread
      | ok next =>
          rw [hstep] at hread
          exact ih (h.step hstep) hread

theorem eq_of_between (h : r.IsTidy) (hbetween : r.mode.IsBetween) :
    r = ⟨r.mode, [], 0, [], r.rows⟩ := by
  rcases r with ⟨m, cell, length, cells, rows⟩
  rcases h.between hbetween with ⟨rfl, rfl⟩
  obtain rfl : length = 0 := h.counted
  rfl

theorem fits_finish (h : r.IsTidy) : ∀ row ∈ r.finish, Fits row := by
  have hended := (h.endCell.endRow rfl .rowStart).rows
  intro row hrow
  rw [Reading.finish] at hrow
  split at hrow
  · exact h.rows row (List.mem_reverse.mp hrow)
  · exact h.rows row (List.mem_reverse.mp hrow)
  · exact hended row (List.mem_reverse.mp hrow)

end Reading.IsTidy

/-!
## A whole text
-/

variable {d : Char} {cs : List Char} {rows : List (List String)} {row : List String}

theorem read_eq_ok_iff :
    read d cs = .ok rows ↔ ∃ r, readOn d {} cs = .ok r ∧ r.finish = rows := by
  rw [read, readOn]
  cases cs.foldlM (Reading.step d) {} with
  | error long => simp [Except.map]
  | ok r => simp [Except.map]

theorem fits_of_read (h : read d cs = .ok rows) : ∀ row ∈ rows, Fits row := by
  rcases read_eq_ok_iff.mp h with ⟨r, hread, rfl⟩
  exact (Reading.IsTidy.start.readOn hread).fits_finish

theorem finish_of_between {m : Mode} (h : m.IsBetween) (rows : List (List String)) :
    Reading.finish ⟨m, [], 0, [], rows⟩ = rows.reverse := by
  rcases h with rfl | rfl
  · rfl
  · rfl

theorem EndsRow.readOn (h : EndsRow d cs) (hread : read d cs = .ok rows) :
    ∃ m : Mode, m.IsBetween ∧ Delimited.readOn d {} cs = .ok ⟨m, [], 0, [], rows.reverse⟩ := by
  rcases h with ⟨r, hr, hbetween⟩
  rcases read_eq_ok_iff.mp hread with ⟨r', hr', hrows⟩
  obtain rfl : r = r' := Except.ok.inj (hr.symm.trans hr')
  have heq := (Reading.IsTidy.start.readOn hr).eq_of_between hbetween
  rw [heq, finish_of_between hbetween] at hrows
  refine ⟨r.mode, hbetween, ?_⟩
  rw [hr, ← hrows, List.reverse_reverse]
  exact congrArg Except.ok heq

theorem EndsRow.readOn_writeRow (hd : IsDelimiter d) (h : EndsRow d cs)
    (hread : read d cs = .ok rows) (hfits : Fits row) :
    Delimited.readOn d {} (cs ++ writeRow d row) =
      .ok ⟨.rowStart, [], 0, [], row :: rows.reverse⟩ := by
  rcases h.readOn hread with ⟨m, hbetween, hr⟩
  rw [readOn_append_of_ok hr, Delimited.readOn_writeRow hd hbetween hfits]

theorem EndsRow.read_append (hd : IsDelimiter d) (h : EndsRow d cs) (hread : read d cs = .ok rows)
    (hfits : Fits row) : read d (cs ++ writeRow d row) = .ok (rows ++ [row]) := by
  refine read_eq_ok_iff.mpr ⟨_, h.readOn_writeRow hd hread hfits, ?_⟩
  rw [finish_of_between (Or.inl rfl), List.reverse_cons, List.reverse_reverse]

theorem EndsRow.append (hd : IsDelimiter d) (h : EndsRow d cs) (hread : read d cs = .ok rows)
    (hfits : Fits row) : EndsRow d (cs ++ writeRow d row) :=
  ⟨_, h.readOn_writeRow hd hread hfits, Or.inl rfl⟩

/-- A row with a cell that is too long cannot be read behind any text. -/
theorem EndsRow.read_append_of_long (hd : IsDelimiter d) (h : EndsRow d cs)
    (hread : read d cs = .ok rows) (hlong : ¬Fits row) :
    read d (cs ++ writeRow d row) = .error {} := by
  rcases h.readOn hread with ⟨m, hbetween, hr⟩
  have hrow := readOn_writeRow_of_long hd hbetween hlong rows.reverse
  rw [read, ← Delimited.readOn, readOn_append_of_ok hr, hrow]
  rfl

theorem endsRow_writeRows (hd : IsDelimiter d) (hfits : ∀ row ∈ rows, Fits row) :
    EndsRow d (writeRows d rows) :=
  ⟨_, readOn_writeRows hd hfits [], Or.inl rfl⟩

end Delimited
end Roster
