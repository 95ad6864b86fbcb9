import Mathlib.Data.List.Basic
import Roster.Yaml.Cursor

/-!
# Going over what was written

Whatever a reader takes, it leaves the cursor some characters further on.  The lemmas here say what
stands in front of the cursor then, and what is known of its place.
-/

namespace Roster
namespace Yaml

/-- A line end as it is read: the next line of the control characters counts as a line feed. -/
def lineEnd (ch : Char) : Char := if ch == '\x85' then '\n' else ch

namespace Cursor

variable {c : Cursor} {front back : List Char} {ch : Char}

theorem forward_forward (c : Cursor) (m n : Nat) : (c.forward m).forward n = c.forward (m + n) := by
  induction m generalizing c with
  | zero => rw [Nat.zero_add, forward]
  | succ m ih => rw [forward, ih, Nat.add_right_comm, forward]

theorem rest_step (c : Cursor) : c.step.rest = c.rest.drop 1 := by
  rw [step]
  split
  · rename_i hnil
    rw [hnil]
    rfl
  · rename_i ch rest hcons
    rw [hcons]
    split
    · rfl
    · split <;> rfl

theorem rest_forward (c : Cursor) (n : Nat) : (c.forward n).rest = c.rest.drop n := by
  induction n generalizing c with
  | zero => rfl
  | succ n ih => rw [forward, ih, rest_step, List.drop_drop, Nat.add_comm]

theorem rest_forward_append (h : c.rest = front ++ back) :
    (c.forward front.length).rest = back := by
  rw [rest_forward, h, List.drop_left]

theorem rest_forward_blanks {n : Nat} (h : c.rest = List.replicate n ' ' ++ back) :
    (c.forward n).rest = back := by
  rw [rest_forward, h, List.drop_left' List.length_replicate]

theorem rest_forward_one (h : c.rest = ch :: back) : (c.forward 1).rest = back := by
  rw [rest_forward, h]
  rfl

/-!
## Places
-/

theorem step_of_isBreak (h : c.rest = ch :: back) (hbreak : Style.isBreak ch = true) :
    c.step = ⟨back, c.index + 1, c.line + 1, 0⟩ := by
  rw [step, h]
  exact if_pos hbreak

theorem step_of_inLine (h : c.rest = ch :: back) (hbreak : Style.isBreak ch = false)
    (hmark : ch ≠ '\uFEFF') : c.step = ⟨back, c.index + 1, c.line, c.column + 1⟩ := by
  simp [step, h, hbreak, hmark]

theorem index_step (h : c.rest = ch :: back) : c.step.index = c.index + 1 := by
  rw [step, h]
  dsimp only
  split
  · rfl
  · split <;> rfl

theorem index_forward (h : c.rest = front ++ back) :
    (c.forward front.length).index = c.index + front.length := by
  induction front generalizing c with
  | nil => rfl
  | cons ch front ih =>
      rw [List.length_cons, forward, ih (by rw [rest_step, h]; rfl), index_step h]
      omega

theorem line_le_step (c : Cursor) : c.line ≤ c.step.line := by
  rw [step]
  split
  · exact Nat.le_refl _
  · split
    · exact Nat.le_succ _
    · split <;> exact Nat.le_refl _

theorem line_le_forward (c : Cursor) (n : Nat) : c.line ≤ (c.forward n).line := by
  induction n generalizing c with
  | zero => exact Nat.le_refl _
  | succ n ih => exact Nat.le_trans (line_le_step c) (ih c.step)

theorem place_forward_of_inLine (h : c.rest = front ++ back)
    (hline : ∀ ch ∈ front, Style.isBreak ch = false ∧ ch ≠ '\uFEFF') :
    (c.forward front.length).line = c.line ∧
      (c.forward front.length).column = c.column + front.length := by
  induction front generalizing c with
  | nil => exact ⟨rfl, rfl⟩
  | cons ch front ih =>
      rcases hline ch List.mem_cons_self with ⟨hbreak, hmark⟩
      have hstep := step_of_inLine h hbreak hmark
      have hrest := ih (c := c.step) (by rw [rest_step, h]; rfl)
        fun other hother => hline other (List.mem_cons_of_mem _ hother)
      rw [List.length_cons, forward, hrest.1, hrest.2, hstep]
      exact ⟨rfl, Nat.add_right_comm c.column 1 front.length⟩

theorem place_forward_one (h : c.rest = ch :: back)
    (hline : Style.isBreak ch = false ∧ ch ≠ '\uFEFF') :
    (c.forward 1).line = c.line ∧ (c.forward 1).column = c.column + 1 := by
  rw [forward, forward, step_of_inLine h hline.1 hline.2]
  exact ⟨rfl, rfl⟩

theorem place_forward_of_isBreak (h : c.rest = front ++ ch :: back)
    (hbreak : Style.isBreak ch = true) :
    c.line < (c.forward (front.length + 1)).line ∧ (c.forward (front.length + 1)).column = 0 := by
  rw [← forward_forward, forward, forward, step_of_isBreak (rest_forward_append h) hbreak]
  exact ⟨Nat.lt_succ_of_le (line_le_forward c _), rfl⟩

theorem column_forward_one_of_isBreak (h : c.rest = ch :: back) (hbreak : Style.isBreak ch = true) :
    (c.forward 1).column = 0 := by
  have hcut : c.rest = [] ++ ch :: back := h
  exact (place_forward_of_isBreak hcut hbreak).2

/-!
## What the cursor sees
-/

theorem peek_of_rest (h : c.rest = ch :: back) : c.peek = ch := by
  rw [peek, h]
  rfl

theorem peek_ne {other : Char} (h : ∀ ch ∈ c.rest.head?, ch ≠ other) (hother : other ≠ '\x00') :
    c.peek ≠ other := by
  rw [peek]
  cases hrest : c.rest with
  | nil => exact hother.symm
  | cons ch back => exact h ch (by rw [hrest]; rfl)

theorem takeWhile_append {test : Char → Bool} (h : c.rest = front ++ back)
    (hfront : ∀ ch ∈ front, test ch = true) (hback : ∀ ch ∈ back.head?, test ch = false) :
    c.takeWhile test = (front, c.forward front.length) := by
  have htaken : c.rest.takeWhile test = front := by
    rw [h, List.takeWhile_append_of_pos hfront]
    cases back with
    | nil => rw [List.takeWhile_nil, List.append_nil]
    | cons ch back =>
        rw [List.takeWhile_cons_of_neg (by simp [hback ch rfl]), List.append_nil]
  rw [takeWhile, htaken]

theorem takeWhile_eq_nil {test : Char → Bool} (h : ∀ ch ∈ c.rest.head?, test ch = false) :
    c.takeWhile test = ([], c) := by
  have hcut : c.rest = [] ++ c.rest := rfl
  exact takeWhile_append hcut nofun h

theorem skipWhile_eq_self {test : Char → Bool} (h : ∀ ch ∈ c.rest.head?, test ch = false) :
    c.skipWhile test = c := by
  rw [skipWhile, takeWhile_eq_nil h]

theorem takeWhile_blanks {test : Char → Bool} {n : Nat} (hblank : test ' ' = true)
    (h : c.rest = List.replicate n ' ' ++ back) (hback : ∀ ch ∈ back.head?, test ch = false) :
    c.takeWhile test = (List.replicate n ' ', c.forward n) := by
  have htaken := takeWhile_append h
    (fun ch hch => (congrArg test (List.eq_of_mem_replicate hch)).trans hblank) hback
  rwa [List.length_replicate] at htaken

theorem skipWhile_blanks {test : Char → Bool} {n : Nat} (hblank : test ' ' = true)
    (h : c.rest = List.replicate n ' ' ++ back) (hback : ∀ ch ∈ back.head?, test ch = false) :
    c.skipWhile test = c.forward n := by
  rw [skipWhile, takeWhile_blanks hblank h hback]

theorem skipComment_of_skipWhile {c' : Cursor} (hskip : c.skipWhile isSpace = c')
    (h : ∀ ch ∈ c'.rest.head?, ch ≠ '#') : c.skipComment = c' := by
  rw [skipComment, hskip]
  exact if_neg (by simpa using peek_ne h (by decide))

theorem isBreak_iff :
    Style.isBreak ch = true ↔ ch = '\n' ∨ ch = '\x85' ∨ ch = '\u2028' ∨ ch = '\u2029' := by
  simp [Style.isBreak, or_assoc]

theorem lineBreak?_of_isBreak (h : c.rest = ch :: back) (hbreak : Style.isBreak ch = true) :
    c.lineBreak? = some (lineEnd ch, c.forward 1) := by
  rw [lineBreak?, h]
  rcases isBreak_iff.mp hbreak with rfl | rfl | rfl | rfl <;> rfl

theorem lineBreak?_eq_none (h : ∀ ch ∈ c.rest.head?, Style.isBreak ch = false) :
    c.lineBreak? = none := by
  rw [lineBreak?]
  split
  · rename_i ch back hrest
    have hbreak := h ch (by rw [hrest]; rfl)
    simp only [Style.isBreak, Bool.or_eq_false_iff] at hbreak
    simp [hbreak]
  · rfl

theorem atTriple_eq_false {mark : Char} (h : ∀ ch ∈ c.rest.head?, ch ≠ mark) :
    c.atTriple mark = false := by
  rw [atTriple]
  split
  · rename_i a b d rest hrest
    have hne : a ≠ mark := h a (by rw [hrest]; rfl)
    simp [hne]
  · rfl

theorem atDocumentLine_eq_false (h : ∀ ch ∈ c.rest.head?, ch ≠ '-' ∧ ch ≠ '.') :
    c.atDocumentLine = false := by
  rw [atDocumentLine, atTriple_eq_false fun ch hch => (h ch hch).1,
    atTriple_eq_false fun ch hch => (h ch hch).2]
  rfl

end Cursor
end Yaml
end Roster
