import Roster.Proofs.Yaml.Stretches

/-!
# What the pen writes

Where a line is folded depends on the column of the pen, and readers do not care.  So what is
written is described by relations that allow a fold wherever there may be one: `Laid` for stretches
without escapes, `Escaped` between double quotes, and `Written` for a scalar in its style.
-/

namespace Roster
namespace Yaml

def newLine (level : Nat) : List Char := '\n' :: List.replicate level ' '

/-- Line ends inside a scalar; one more stands in front of a line feed. -/
def lineEnds (level : Nat) (cs : List Char) : List Char :=
  (if cs.head? = some '\n' then ['\n'] else []) ++ cs ++ List.replicate level ' '

/-- Up to the width of a line a single blank behind at most a word is written as it is. -/
def KeepsBlank (escape : Char → List Char) : (column : Nat) → List Stretch → List Char → Prop
  | column, .blanks 1 :: _, text => column ≤ Pen.width → text.head? = some ' '
  | column, .word cs :: rest, text => ∃ behind, text = cs.flatMap escape ++ behind ∧
      KeepsBlank escape (column + (cs.flatMap escape).length) rest behind
  | _, _, _ => True

/-- Stretches as they are written. A single blank may be a new line where lines are folded, but not
in a line that has only just begun. -/
inductive Laid (level : Nat) (folds : Bool) (escape : Char → List Char) :
    List Stretch → List Char → Prop where
  | nil : Laid level folds escape [] []
  | blanks {rest text} (count : Nat) (h : Laid level folds escape rest text) :
      Laid level folds escape (.blanks count :: rest) (List.replicate count ' ' ++ text)
  | fold {rest text} (hfolds : folds = true) (hrest : rest ≠ [])
      (hline : KeepsBlank escape level rest text) (h : Laid level folds escape rest text) :
      Laid level folds escape (.blanks 1 :: rest) (newLine level ++ text)
  | breaks {rest text} (cs : List Char) (hline : KeepsBlank escape level rest text)
      (h : Laid level folds escape rest text) :
      Laid level folds escape (.breaks cs :: rest) (lineEnds level cs ++ text)
  | word {rest text} (cs : List Char) (h : Laid level folds escape rest text) :
      Laid level folds escape (.word cs :: rest) (cs.flatMap escape ++ text)

theorem laid_word (level : Nat) {cs : List Char} (hne : cs ≠ [])
    (hletters : ∀ ch ∈ cs, CharClass.of ch = .letter) :
    Laid level false (fun ch => [ch]) (stretches cs) cs := by
  have hword : Laid level false (fun ch => [ch]) [.word cs] (cs.flatMap (fun ch => [ch]) ++ []) :=
    .word cs .nil
  rw [Stretch.stretches_of_letters hne hletters]
  simpa using hword

/-- Characters between double quotes as they are written. A blank that starts a line is escaped. -/
inductive Escaped (level : Nat) (folds : Bool) : List Char → List Char → Prop where
  | nil : Escaped level folds [] []
  | bare {c cs text} (hbare : Pen.isBare c = true) (h : Escaped level folds cs text) :
      Escaped level folds (c :: cs) (c :: text)
  | escape {c cs text} (hbare : Pen.isBare c = false) (h : Escaped level folds cs text) :
      Escaped level folds (c :: cs) (Pen.escape c ++ text)
  | fold {cs text} (hfolds : folds = true) (hblank : cs.head? ≠ some ' ')
      (h : Escaped level folds cs text) :
      Escaped level folds cs ('\\' :: newLine level ++ text)
  | foldBlank {cs text} (hfolds : folds = true) (h : Escaped level folds cs text) :
      Escaped level folds (' ' :: cs) ('\\' :: newLine level ++ '\\' :: ' ' :: text)

/-- A scalar as it is written. -/
inductive Written (level : Nat) (isKey : Bool) (cs : List Char) : List Char → Prop where
  | plain {text} (hstyle : Style.ofText isKey cs = .plain)
      (h : Laid level (!isKey) (fun c => [c]) (stretches cs) text) : Written level isKey cs text
  | single {text} (hstyle : Style.ofText isKey cs = .single)
      (h : Laid level (!isKey) Pen.doubleQuote (stretches cs) text) :
      Written level isKey cs ('\'' :: text ++ ['\''])
  | double {text} (hstyle : Style.ofText isKey cs = .double)
      (h : Escaped level (!isKey) cs text) : Written level isKey cs ('"' :: text ++ ['"'])

namespace Pen

/-- From one pen to another some text is written. -/
def Wrote (pen pen' : Pen) (text : List Char) : Prop :=
  pen'.reversed = text.reverse ++ pen.reversed

/-- An indentation below the level begins a new line. -/
def IsInside (pen : Pen) (level : Nat) : Prop := pen.fresh = false ∨ level ≤ pen.column

/-- Nothing but indentation and indicators stands in front of the column of the pen. -/
structure IsReady (pen : Pen) (column : Nat) : Prop where
  column : pen.column = column
  blank : pen.blank = true
  fresh : pen.fresh = true

variable {pen pen' pen'' : Pen} {level column : Nat} {folds isKey : Bool}
  {cs front back : List Char}

theorem Wrote.refl (pen : Pen) : pen.Wrote pen [] := rfl

theorem Wrote.trans (h : pen.Wrote pen' front) (h' : pen'.Wrote pen'' back) :
    pen.Wrote pen'' (front ++ back) := by
  rw [Wrote, h', h, List.reverse_append, List.append_assoc]

theorem wrote_put (pen : Pen) (cs : List Char) : pen.Wrote (pen.put cs) cs := rfl

theorem IsInside.put (h : pen.IsInside level) (cs : List Char) : (pen.put cs).IsInside level :=
  h.imp id fun hcolumn => Nat.le_trans hcolumn (Nat.le_add_right _ _)

theorem IsInside.mono (h : pen.IsInside level) (hlevel : column ≤ level) : pen.IsInside column :=
  h.imp id hlevel.trans

theorem isReady_lineBreak (pen : Pen) (c : Char) : (pen.lineBreak c).IsReady 0 := ⟨rfl, rfl, rfl⟩

/-!
## Indentation
-/

theorem indent_of_isReady (h : pen.IsReady column) (hlevel : column < level) :
    pen.indent level = { pen.put (List.replicate (level - column) ' ') with blank := true } := by
  simp [indent, h.column, h.fresh, hlevel, Nat.lt_asymm hlevel, Nat.ne_of_lt hlevel]

theorem indent_self (h : pen.IsReady column) : pen.indent column = pen := by
  simp [indent, h.column, h.fresh, h.blank]

theorem indent_of_isInside (h : pen.IsInside (level + 1)) :
    pen.indent level = (pen.lineBreak '\n').indent level := by
  have hbreaks :
      (!pen.fresh || decide (level < pen.column) || (pen.column == level && !pen.blank)) = true := by
    rcases h with hfresh | hcolumn
    · simp [hfresh]
    · simp [Nat.lt_of_succ_le hcolumn]
  have hready : (!(pen.lineBreak '\n').fresh || decide (level < (pen.lineBreak '\n').column) ||
      ((pen.lineBreak '\n').column == level && !(pen.lineBreak '\n').blank)) = false := by
    simp [lineBreak]
  simp only [indent, hbreaks, hready, if_true, Bool.false_eq_true, if_false]

theorem wrote_indent_of_isReady (h : pen.IsReady column) (hlevel : column ≤ level) :
    pen.Wrote (pen.indent level) (List.replicate (level - column) ' ') ∧
      (pen.indent level).IsReady level := by
  rcases Nat.eq_or_lt_of_le hlevel with rfl | hlevel
  · rw [indent_self h, Nat.sub_self]
    exact ⟨Wrote.refl pen, h⟩
  · rw [indent_of_isReady h hlevel]
    refine ⟨wrote_put _ _, ?_, rfl, h.fresh⟩
    simp only [put, h.column, List.length_replicate]
    omega

theorem wrote_indent_of_isInside (h : pen.IsInside (level + 1)) :
    pen.Wrote (pen.indent level) (newLine level) ∧ (pen.indent level).IsReady level := by
  have hindent := wrote_indent_of_isReady (isReady_lineBreak pen '\n') (Nat.zero_le level)
  rw [indent_of_isInside h]
  exact ⟨(show pen.Wrote (pen.lineBreak '\n') ['\n'] from rfl).trans hindent.1, hindent.2⟩

theorem wrote_foldl_lineBreak (pen : Pen) (cs : List Char) :
    pen.Wrote (cs.foldl lineBreak pen) cs := by
  induction cs generalizing pen with
  | nil => exact Wrote.refl pen
  | cons c cs ih => exact (show pen.Wrote (pen.lineBreak c) [c] from rfl).trans (ih _)

theorem isReady_foldl_lineBreak (pen : Pen) {cs : List Char} (hcs : cs ≠ []) :
    (cs.foldl lineBreak pen).IsReady 0 := by
  rcases List.eq_nil_or_concat' cs with rfl | ⟨front, c, rfl⟩
  · exact absurd rfl hcs
  · rw [List.foldl_append]
    exact isReady_lineBreak _ c

theorem wrote_breaks (level : Nat) (pen : Pen) (hcs : cs ≠ []) :
    pen.Wrote (pen.breaks level cs) (lineEnds level cs) ∧ (pen.breaks level cs).column = level := by
  have hlead : ∀ pen' : Pen,
      pen'.Wrote ((cs.foldl lineBreak pen').indent level) (cs ++ List.replicate level ' ') ∧
        ((cs.foldl lineBreak pen').indent level).column = level := by
    intro pen'
    have hindent := wrote_indent_of_isReady (isReady_foldl_lineBreak pen' hcs) (Nat.zero_le level)
    exact ⟨(wrote_foldl_lineBreak pen' cs).trans hindent.1, hindent.2.column⟩
  rw [breaks, lineEnds]
  by_cases hhead : cs.head? = some '\n'
  · simp only [hhead, BEq.rfl, if_true]
    exact ⟨(show pen.Wrote (pen.lineBreak '\n') ['\n'] from rfl).trans (hlead _).1, (hlead _).2⟩
  · simp only [hhead, if_false, beq_iff_eq, List.nil_append]
    exact hlead pen

/-!
## Scalars
-/

theorem laid_stretchesFrom (folds : Bool) (hwidth : level < width)
    (escape : Char → List Char) {stretches : List Stretch} (hproper : ∀ s ∈ stretches, s.IsProper)
    (first : Bool) (pen : Pen) (hinside : pen.IsInside level) :
    ∃ text, Laid level folds escape stretches text ∧
      pen.Wrote (stretchesFrom level folds escape first pen stretches) text ∧
      (stretchesFrom level folds escape first pen stretches).IsInside level ∧
      KeepsBlank escape pen.column stretches text := by
  -- In a line that a fold or a line end begins, a blank must be written as it is; so the induction
  -- shows `KeepsBlank` as well.
  induction stretches generalizing first pen with
  | nil => exact ⟨[], .nil, Wrote.refl pen, hinside, trivial⟩
  | cons stretch rest ih =>
      rcases List.forall_mem_cons.mp hproper with ⟨hstretch, hrest⟩
      cases stretch with
      | blanks count =>
          rw [stretchesFrom]
          split
          · rename_i hfold
            simp only [Bool.and_eq_true, beq_iff_eq, decide_eq_true_eq] at hfold
            rcases hfold with ⟨⟨⟨⟨rfl, hcolumn⟩, hfolds⟩, -⟩, hmore⟩
            have hindent := wrote_indent_of_isInside (Or.inr (hwidth.trans hcolumn) : pen.IsInside _)
            rcases ih hrest false (pen.indent level) (Or.inr hindent.2.column.ge) with
              ⟨text, hlaid, hwrote, hbehind, hline⟩
            rw [hindent.2.column] at hline
            exact ⟨_, .fold hfolds (by simpa using hmore) hline hlaid, hindent.1.trans hwrote, hbehind,
              fun hroom => absurd hcolumn (Nat.not_lt.mpr hroom)⟩
          · rcases ih hrest false _ (hinside.put _) with ⟨text, hlaid, hwrote, hbehind, -⟩
            refine ⟨_, .blanks count hlaid, (wrote_put _ _).trans hwrote, hbehind, ?_⟩
            unfold KeepsBlank
            split
            · rename_i heq
              cases heq
              exact fun _ => rfl
            · rename_i heq
              cases heq
            · trivial
      | breaks cs =>
          rw [stretchesFrom]
          have hbreaks := wrote_breaks level pen hstretch.1
          rcases ih hrest false _ (Or.inr hbreaks.2.ge) with ⟨text, hlaid, hwrote, hbehind, hline⟩
          rw [hbreaks.2] at hline
          exact ⟨_, .breaks cs hline hlaid, hbreaks.1.trans hwrote, hbehind, trivial⟩
      | word cs =>
          rw [stretchesFrom]
          rcases ih hrest false _ (hinside.put _) with ⟨text, hlaid, hwrote, hbehind, hline⟩
          exact ⟨_, .word cs hlaid, (wrote_put _ _).trans hwrote, hbehind, _, rfl, hline⟩

/-- The line is broken off with a backslash and goes on at the indentation. -/
def breakOff (pen : Pen) (level : Nat) : Pen :=
  { (pen.put ['\\']).indent level with blank := false, fresh := false }

theorem wrote_breakOff (pen : Pen) (level : Nat) (hfresh : pen.fresh = false) :
    pen.Wrote (pen.breakOff level) ('\\' :: newLine level) ∧ (pen.breakOff level).column = level := by
  have hindent := wrote_indent_of_isInside (Or.inl hfresh : (pen.put ['\\']).IsInside (level + 1))
  exact ⟨(wrote_put pen ['\\']).trans hindent.1, hindent.2.column⟩

/-- A bare character waits to be written, or the line is broken off in front of it. -/
theorem doubleFrom_bare (level : Nat) (folds : Bool) {c : Char} (hbare : isBare c = true)
    (first : Bool) (waiting : List Char)
    (pen : Pen) (rest : List Char) :
    doubleFrom level folds first waiting pen (c :: rest) =
        doubleFrom level folds false (c :: waiting) pen rest ∨
      folds = true ∧ doubleFrom level folds first waiting pen (c :: rest) =
        doubleFrom level folds false [c]
          (if c = ' ' then ((pen.put waiting.reverse).breakOff level).put ['\\']
          else (pen.put waiting.reverse).breakOff level) rest := by
  rw [doubleFrom]
  simp only [hbare, if_true, Option.some_beq_some, beq_iff_eq]
  split
  · rename_i hfold
    simp only [Bool.and_eq_true] at hfold
    exact Or.inr ⟨hfold.1.1.1.1, rfl⟩
  · exact Or.inl rfl

/-- An escape is written at once, and the line may be broken off behind it. -/
theorem doubleFrom_escape (level : Nat) (folds : Bool) {c : Char} (hbare : isBare c = false)
    (first : Bool)
    (waiting : List Char) (pen : Pen) (rest : List Char) :
    let escaped := (pen.put waiting.reverse).put (escape c)
    doubleFrom level folds first waiting pen (c :: rest) =
        doubleFrom level folds false [] escaped rest ∨
      folds = true ∧ doubleFrom level folds first waiting pen (c :: rest) =
        doubleFrom level folds false []
          (if rest.head? = some ' ' then (escaped.breakOff level).put ['\\']
          else escaped.breakOff level) rest := by
  rw [doubleFrom]
  simp only [hbare, Bool.false_eq_true, if_false, beq_iff_eq]
  split
  · rename_i hfold
    simp only [Bool.and_eq_true] at hfold
    exact Or.inr ⟨hfold.1.1.1.1, rfl⟩
  · exact Or.inl rfl

theorem doubleFrom_blank (first : Bool) (pen : Pen) (rest : List Char)
    (hcolumn : pen.column ≤ width) :
    doubleFrom level folds first [] pen (' ' :: rest) =
      doubleFrom level folds false [' '] pen rest := by
  have hbare : isBare ' ' = true := by decide
  simp [doubleFrom, hbare, Nat.not_lt.mpr hcolumn]

/-- Inside a line the characters are written behind those that wait, and the pen stays inside one. -/
def WritesEscaped (level : Nat) (folds : Bool) (cs : List Char) : Prop :=
  ∀ (first : Bool) (waiting : List Char) (pen : Pen), pen.fresh = false →
    ∃ text, Escaped level folds cs text ∧
      pen.Wrote (doubleFrom level folds first waiting pen cs) (waiting.reverse ++ text) ∧
      (doubleFrom level folds first waiting pen cs).fresh = false

theorem writesEscaped_nil : WritesEscaped level folds [] := by
  intro first waiting pen hfresh
  rw [doubleFrom]
  exact ⟨[], .nil, by simpa using wrote_put pen waiting.reverse, hfresh⟩

theorem WritesEscaped.foldBlank {rest front : List Char} (h : WritesEscaped level folds rest)
    (hfolds : folds = true) (hfront : pen.Wrote pen' front) (hfresh : pen'.fresh = false) :
    ∃ text, Escaped level folds (' ' :: rest) text ∧
      pen.Wrote (doubleFrom level folds false [' '] ((pen'.breakOff level).put ['\\']) rest)
        (front ++ text) ∧
      (doubleFrom level folds false [' '] ((pen'.breakOff level).put ['\\']) rest).fresh = false := by
  have hbroken := hfront.trans (wrote_breakOff pen' level hfresh).1
  rcases h false [' '] ((pen'.breakOff level).put ['\\']) rfl with ⟨text, htext, hwrote, hbehind⟩
  exact ⟨_, .foldBlank hfolds htext,
    by simpa using (hbroken.trans (wrote_put _ ['\\'])).trans hwrote, hbehind⟩

theorem WritesEscaped.bare {c : Char} {rest : List Char} (h : WritesEscaped level folds rest)
    (hbare : isBare c = true) : WritesEscaped level folds (c :: rest) := by
  intro first waiting pen hfresh
  have hwaiting := wrote_put pen waiting.reverse
  rcases doubleFrom_bare level folds hbare first waiting pen rest with heq | ⟨hfolds, heq⟩
  · rcases h false (c :: waiting) pen hfresh with ⟨text, htext, hwrote, hbehind⟩
    rw [heq]
    exact ⟨_, .bare hbare htext, by simpa using hwrote, hbehind⟩
  · by_cases hblank : c = ' '
    · subst hblank
      rw [if_pos rfl] at heq
      rw [heq]
      exact h.foldBlank hfolds hwaiting hfresh
    · have hbroken := hwaiting.trans (wrote_breakOff (pen.put waiting.reverse) level hfresh).1
      rw [if_neg hblank] at heq
      rcases h false [c] ((pen.put waiting.reverse).breakOff level) rfl with
        ⟨text, htext, hwrote, hbehind⟩
      rw [heq]
      exact ⟨_, .fold hfolds (by simpa using hblank) (.bare hbare htext),
        by simpa using hbroken.trans hwrote, hbehind⟩

theorem WritesEscaped.escape {c : Char} {rest : List Char} (h : WritesEscaped level folds rest)
    (hmore : ∀ more, rest = ' ' :: more → WritesEscaped level folds more) (hwidth : level < width)
    (hbare : isBare c = false) : WritesEscaped level folds (c :: rest) := by
  intro first waiting pen hfresh
  have hescape := (wrote_put pen waiting.reverse).trans (wrote_put _ (Pen.escape c))
  have hinside : ((pen.put waiting.reverse).put (Pen.escape c)).fresh = false := hfresh
  rcases doubleFrom_escape level folds hbare first waiting pen rest with heq | ⟨hfolds, heq⟩
  · rcases h false [] _ hinside with ⟨text, htext, hwrote, hbehind⟩
    rw [heq]
    exact ⟨_, .escape hbare htext, by simpa using hescape.trans hwrote, hbehind⟩
  · have hbreak := wrote_breakOff _ level hinside
    by_cases hblank : rest.head? = some ' '
    · rcases List.head?_eq_some_iff.mp hblank with ⟨more, rfl⟩
      have hcolumn : ((((pen.put waiting.reverse).put (Pen.escape c)).breakOff level).put
          ['\\']).column ≤ width := hbreak.2.trans_lt hwidth
      rw [if_pos hblank, doubleFrom_blank _ _ _ hcolumn] at heq
      rcases (hmore more rfl).foldBlank hfolds hescape hinside with ⟨text, htext, hwrote, hbehind⟩
      rw [heq]
      exact ⟨_, .escape hbare htext, by simpa using hwrote, hbehind⟩
    · rw [if_neg hblank] at heq
      rcases h false [] (((pen.put waiting.reverse).put (Pen.escape c)).breakOff level) rfl with
        ⟨text, htext, hwrote, hbehind⟩
      rw [heq]
      exact ⟨_, .escape hbare (.fold hfolds hblank htext),
        by simpa using (hescape.trans hbreak.1).trans hwrote, hbehind⟩

theorem writesEscaped (folds : Bool) (hwidth : level < width) (cs : List Char) :
    WritesEscaped level folds cs ∧ ∀ more, cs = ' ' :: more → WritesEscaped level folds more := by
  -- A line that is broken off behind an escape takes a blank along, so the induction carries what
  -- stands behind such a blank.
  induction cs with
  | nil => exact ⟨writesEscaped_nil, fun more heq => nomatch heq⟩
  | cons c rest ih =>
      refine ⟨?_, fun more heq => (List.cons.inj heq).2 ▸ ih.1⟩
      cases hbare : isBare c with
      | true => exact ih.1.bare hbare
      | false => exact ih.1.escape ih.2 hwidth hbare

theorem wrote_lead (pen : Pen) :
    pen.Wrote (if pen.blank then pen else pen.put [' ']) (if pen.blank then [] else [' ']) := by
  split
  · exact Wrote.refl pen
  · exact wrote_put pen [' ']

theorem wrote_indicator (pen : Pen) (cs : List Char) (needsBlank keepsFresh : Bool) :
    pen.Wrote (pen.indicator cs needsBlank keepsFresh)
      ((if pen.blank || !needsBlank then [] else [' ']) ++ cs) := by
  rw [indicator]
  split
  · exact wrote_put pen cs
  · exact wrote_put pen (' ' :: cs)

theorem fresh_indicator (pen : Pen) (cs : List Char) (needsBlank : Bool) :
    (pen.indicator cs needsBlank false).fresh = false :=
  Bool.and_false _

/-- A scalar is written in its style, behind a blank where it needs one. -/
theorem written_scalar (hwidth : level < width) (isKey : Bool) (pen : Pen) (cs : List Char) :
    ∃ text, Written level isKey cs text ∧
      pen.Wrote (pen.scalar level isKey cs) ((if pen.blank then [] else [' ']) ++ text) ∧
      (pen.scalar level isKey cs).IsInside level := by
  rw [scalar]
  cases hstyle : Style.ofText isKey cs with
  | plain =>
      have hne : cs ≠ [] := by
        rintro rfl
        revert hstyle
        cases isKey <;> decide
      rcases laid_stretchesFrom (!isKey) hwidth (fun c => [c])
        (fun _ hmem => Stretch.isProper_of_mem hmem) true
        { (if pen.blank then pen else pen.put [' ']) with blank := false, fresh := false }
        (Or.inl rfl) with ⟨text, hlaid, hwrote, hinside, -⟩
      refine ⟨text, .plain hstyle hlaid, ?_, ?_⟩
      · rw [plain, if_neg (by simpa using hne)]
        exact (wrote_lead pen).trans hwrote
      · rw [plain, if_neg (by simpa using hne)]
        exact hinside
  | single =>
      rcases laid_stretchesFrom (!isKey) hwidth doubleQuote
        (fun _ hmem => Stretch.isProper_of_mem hmem) true (pen.indicator ['\''] true false)
        (Or.inl (fresh_indicator pen _ true)) with ⟨text, hlaid, hwrote, -, -⟩
      refine ⟨_, .single hstyle hlaid, ?_, Or.inl (fresh_indicator _ _ false)⟩
      have hopen := wrote_indicator pen ['\''] true false
      have hclose := wrote_indicator
        (stretchesFrom level (!isKey) doubleQuote true (pen.indicator ['\''] true false)
          (stretches cs)) ['\''] false false
      simpa [single] using (hopen.trans hwrote).trans hclose
  | double =>
      rcases (writesEscaped (!isKey) hwidth cs).1 true []
        (pen.indicator ['"'] true false) (fresh_indicator pen _ true) with
        ⟨text, hescaped, hwrote, -⟩
      refine ⟨_, .double hstyle hescaped, ?_, Or.inl (fresh_indicator _ _ false)⟩
      have hopen := wrote_indicator pen ['"'] true false
      have hclose := wrote_indicator
        (doubleFrom level (!isKey) true [] (pen.indicator ['"'] true false) cs) ['"'] false false
      simpa [double] using (hopen.trans hwrote).trans hclose

end Pen
end Yaml
end Roster
