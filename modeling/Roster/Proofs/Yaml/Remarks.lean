import Roster.Proofs.Yaml.RoundTrip
import Roster.Text.Segments

/-!
# Remarks behind keys

Putting a remark behind every line that ends in a certain way is a matter of lines.  In a document
such lines end with a key whose list or map stands below, unless a text between single quotes
imitates one; so the document with its remarks is written as documents are.
-/

namespace Roster
namespace Yaml

/-!
## Line by line
-/

/-- What a key is known by. -/
def markWord : List Char := "options:".toList

/-- How lines end that get a remark. -/
def lineMark : List Char := List.replicate 4 ' ' ++ markWord

/-- The remark, behind two blanks. -/
def remark : List Char := "  # '*' designates the default option".toList

/-- A text with its remarks; the line so far is kept in reverse. -/
def remarked : (line : List Char) → List Char → List Char
  | _, [] => []
  | line, c :: rest =>
      if c = '\n' then
        (if lineMark.reverse.isPrefixOf line then remark else []) ++ '\n' :: remarked [] rest
      else c :: remarked (c :: line) rest

section Lines

variable {line cs rest text : List Char}

theorem remarked_append (h : '\n' ∉ cs) (line rest : List Char) :
    remarked line (cs ++ rest) = cs ++ remarked (cs.reverse ++ line) rest := by
  induction cs generalizing line with
  | nil => rfl
  | cons c cs ih =>
      rcases not_or.mp (List.mem_cons.not.mp h) with ⟨hc, hcs⟩
      rw [List.cons_append, remarked, if_neg (Ne.symm hc), ih hcs, List.reverse_cons,
        List.append_assoc]
      rfl

theorem remarked_newLine_of_not (h : ¬lineMark.reverse <+: line) (rest : List Char) :
    remarked line ('\n' :: rest) = '\n' :: remarked [] rest := by
  rw [remarked, if_pos rfl, if_neg (by rwa [List.isPrefixOf_iff_prefix]), List.nil_append]

theorem not_marked_of_head? (h : line.head? ≠ some ':') : ¬lineMark.reverse <+: line := by
  rintro ⟨tail, rfl⟩
  exact h rfl

/-- A marked line end gets its remark, whatever stands in front of it. -/
theorem remarked_lineMark (line rest : List Char) :
    remarked line (lineMark ++ '\n' :: rest) = lineMark ++ (remark ++ '\n' :: remarked [] rest) := by
  have hmark : lineMark.reverse.isPrefixOf (lineMark.reverse ++ line) = true := by simp
  rw [remarked_append (by decide), remarked, if_pos rfl, if_pos hmark]

/-- No marked line end begins in the line so far. -/
def IsOpen (line cs : List Char) : Prop :=
  ∀ recent, recent ≠ [] → recent <+: line → ¬lineMark ++ ['\n'] <+: recent.reverse ++ cs

theorem isOpen_nil (cs : List Char) : IsOpen [] cs :=
  fun _ hne hrecent => absurd (List.prefix_nil.mp hrecent) hne

theorem IsOpen.cons {c : Char} (h : IsOpen line (c :: rest))
    (hc : ¬lineMark ++ ['\n'] <+: c :: rest) : IsOpen (c :: line) rest := by
  intro recent hne hrecent hold
  rcases List.exists_cons_of_ne_nil hne with ⟨first, recent, rfl⟩
  rw [List.cons_prefix_cons] at hrecent
  rcases hrecent with ⟨rfl, hrecent⟩
  rw [List.reverse_cons, List.append_assoc] at hold
  by_cases hnil : recent = []
  · rw [hnil] at hold
    exact hc hold
  · exact h recent hnil hrecent hold

theorem IsOpen.not_marked (h : IsOpen line ('\n' :: rest)) : ¬lineMark.reverse <+: line := by
  intro hline
  refine h lineMark.reverse (by decide) hline ⟨rest, ?_⟩
  rw [List.reverse_reverse, List.append_assoc]
  rfl

theorem replaceAll_go_eq (bound : Nat) (hlength : cs.length ≤ bound) (hopen : IsOpen line cs) :
    Text.replaceAll.go (lineMark ++ ['\n']) (lineMark ++ remark ++ ['\n']) bound cs =
      remarked line cs := by
  -- Behind a marked line end the search goes on many characters further.
  induction bound using Nat.strong_induction_on generalizing line cs with
  | h bound ih =>
      match bound, cs with
      | 0, [] => rfl
      | _ + 1, [] => rfl
      | bound + 1, c :: rest =>
          have hrest : rest.length ≤ bound := Nat.le_of_succ_le_succ hlength
          rw [Text.replaceAll.go]
          by_cases hmark : lineMark ++ ['\n'] <+: c :: rest
          · rcases hmark with ⟨behind, hbehind⟩
            have hdrop : (c :: rest).drop (lineMark ++ ['\n']).length = behind := by
              rw [← hbehind, List.drop_left]
            have hfewer : behind.length ≤ bound := by
              have hcount := congrArg List.length hbehind
              simp only [List.length_append, List.length_cons] at hcount
              omega
            rw [hdrop, ih bound (Nat.lt_succ_self _) hfewer (isOpen_nil _), ← hbehind, if_pos (by simp)]
            simpa using (remarked_lineMark line behind).symm
          · have hnot : (lineMark ++ ['\n']).isPrefixOf (c :: rest) = false := by
              rwa [← Bool.not_eq_true, List.isPrefixOf_iff_prefix]
            rw [hnot, Bool.false_and, if_neg Bool.false_ne_true, remarked]
            split
            · rename_i hc
              rw [hc] at hopen
              rw [hc, ih bound (Nat.lt_succ_self _) hrest (isOpen_nil _),
                if_neg (by rw [List.isPrefixOf_iff_prefix]; exact hopen.not_marked), List.nil_append]
            · rw [ih bound (Nat.lt_succ_self _) hrest (hopen.cons hmark)]

/-- Replacing the marked line ends is putting remarks behind the lines. -/
theorem replaceAll_eq_remarked (cs : List Char) :
    Text.replaceAll (lineMark ++ ['\n']) (lineMark ++ remark ++ ['\n']) cs = remarked [] cs :=
  replaceAll_go_eq cs.length (Nat.le_refl _) (isOpen_nil cs)

end Lines

/-!
## Scalars get no remarks
-/

/-- Behind the line so far a text gets no remarks, and it leaves another line. -/
def Passes (line text line' : List Char) : Prop :=
  ∀ rest, remarked line (text ++ rest) = text ++ remarked line' rest

section Scalars

variable {level : Nat} {folds : Bool} {parts rest : List Stretch}
  {line line' line'' front back text cs : List Char}

theorem passes_nil (line : List Char) : Passes line [] line := fun _ => rfl

theorem Passes.trans (h : Passes line front line') (h' : Passes line' back line'') :
    Passes line (front ++ back) line'' := by
  intro rest
  rw [List.append_assoc, h, h', List.append_assoc]

theorem passes_of_notMem (h : '\n' ∉ cs) (line : List Char) : Passes line cs (cs.reverse ++ line) :=
  remarked_append h line

theorem passes_newLine (h : ¬lineMark.reverse <+: line) (level : Nat) :
    Passes line (newLine level) (List.replicate level ' ') := by
  have hblanks : '\n' ∉ List.replicate level ' ' := by simp
  have hline : Passes line ['\n'] [] := remarked_newLine_of_not h
  simpa [newLine] using hline.trans (passes_of_notMem hblanks [])

/-!
### Between single quotes
-/

/-- The line so far does not end with a letter of the word. -/
def Rests (line : List Char) : Prop := ∀ c ∈ line.head?, c ∉ markWord

theorem Rests.not_marked (h : Rests line) : ¬lineMark.reverse <+: line :=
  not_marked_of_head? fun hhead => h ':' hhead (by decide)

theorem rests_nil : Rests [] := by
  intro c hc
  cases hc

theorem rests_gap (n : Nat) : Rests (List.replicate (n + 1) ' ' ++ line) := by
  intro c hc
  cases hc
  decide

theorem rests_blanks (level : Nat) (h : Rests line) : Rests (List.replicate level ' ' ++ line) := by
  cases level with
  | zero => exact h
  | succ level => exact rests_gap level

theorem passes_break {c : Char} (hc : Style.isBreak c = true)
    (hline : c = '\n' → ¬lineMark.reverse <+: line) : ∃ line', Rests line' ∧ Passes line [c] line' := by
  by_cases hfeed : c = '\n'
  · rw [hfeed]
    exact ⟨[], rests_nil, remarked_newLine_of_not (hline hfeed)⟩
  · refine ⟨[c] ++ line, ?_, passes_of_notMem (by simpa using Ne.symm hfeed) line⟩
    rintro d hd hmem
    cases hd
    have hword : ∀ d ∈ markWord, Style.isBreak d = false := by decide
    rw [hword c hmem] at hc
    cases hc

theorem passes_breaks (hcs : ∀ c ∈ cs, Style.isBreak c = true) (hline : Rests line) :
    ∃ line', Rests line' ∧ Passes line cs line' := by
  induction cs generalizing line with
  | nil => exact ⟨line, hline, passes_nil line⟩
  | cons c cs ih =>
      rcases List.forall_mem_cons.mp hcs with ⟨hc, hcs⟩
      rcases passes_break hc fun _ => hline.not_marked with ⟨line', hline', hpasses⟩
      rcases ih hcs hline' with ⟨line'', hline'', hpasses'⟩
      exact ⟨line'', hline'', hpasses.trans hpasses'⟩

theorem passes_lineEnds (hcs : ∀ c ∈ cs, Style.isBreak c = true) (hne : cs ≠ [])
    (hline : cs.head? = some '\n' → ¬lineMark.reverse <+: line) (level : Nat) :
    ∃ line', Rests line' ∧ Passes line (lineEnds level cs) line' := by
  have hblanks : '\n' ∉ List.replicate level ' ' := by simp
  have hlead : ∃ line', Rests line' ∧
      Passes line ((if cs.head? = some '\n' then ['\n'] else []) ++ cs) line' := by
    split
    · rename_i hhead
      rcases passes_breaks hcs rests_nil with ⟨line', hline', hpasses⟩
      have hfeed : Passes line ['\n'] [] := remarked_newLine_of_not (hline hhead)
      exact ⟨line', hline', hfeed.trans hpasses⟩
    · rename_i hhead
      rcases List.exists_cons_of_ne_nil hne with ⟨c, cs, rfl⟩
      rcases List.forall_mem_cons.mp hcs with ⟨hc, hcs⟩
      have hfirst : c = '\n' → ¬lineMark.reverse <+: line := fun hfeed =>
        absurd (congrArg some hfeed) hhead
      rcases passes_break hc hfirst with ⟨line', hline', hpasses⟩
      rcases passes_breaks hcs hline' with ⟨line'', hline'', hpasses'⟩
      exact ⟨line'', hline'', hpasses.trans hpasses'⟩
  rcases hlead with ⟨line', hline', hpasses⟩
  refine ⟨_, rests_blanks level hline', ?_⟩
  simpa [lineEnds] using hpasses.trans (passes_of_notMem hblanks line')

/-- A line ends with the mark only if the word stands behind four blanks. -/
theorem eq_markWord_of_marked (hcs : ∀ c ∈ cs, c ≠ ' ') (hline : Rests line)
    (hmarked : lineMark.reverse <+: cs.reverse ++ line) :
    cs = markWord ∧ List.replicate 4 ' ' <+: line := by
  rcases hmarked with ⟨tail, htail⟩
  have hmark : lineMark.reverse = markWord.reverse ++ List.replicate 4 ' ' := by decide
  rw [hmark, List.append_assoc, List.append_eq_append_iff] at htail
  rcases htail with ⟨more, hword, hmore⟩ | ⟨more, hword, hmore⟩
  · cases more with
    | nil =>
        rw [List.append_nil, List.reverse_inj] at hword
        exact ⟨hword, tail, hmore⟩
    | cons c more =>
        have hblank : c = ' ' := (List.cons.inj hmore).1.symm
        exact absurd hblank (hcs c (List.mem_reverse.mp (hword ▸ by simp)))
  · cases more with
    | nil =>
        rw [List.append_nil, List.reverse_inj] at hword
        exact ⟨hword.symm, tail, hmore.symm⟩
    | cons c more =>
        have hmem : c ∈ markWord := List.mem_reverse.mp (hword ▸ by simp)
        exact absurd hmem (hline c (by rw [hmore]; rfl))

/-- At least four blanks. -/
def isWide : Stretch → Bool
  | .blanks count => decide (4 ≤ count)
  | _ => false

/-- Whether first the word is found, at the end of a line or behind four blanks, and then something
else. -/
def isImitation (before : Stretch) : List Stretch → Bool
  | .word cs :: behind :: _ => cs == markWord && (behind.charClass == .lineEnd || isWide before)
  | _ => false

/-- Whether some stretches imitate the end of a line that gets a remark. -/
def imitatesMark : List Stretch → Bool
  | [] => false
  | before :: rest => isImitation before rest || imitatesMark rest

theorem imitatesMark_tail {before : Stretch} (h : imitatesMark (before :: rest) = false) :
    imitatesMark rest = false := by
  rw [imitatesMark, Bool.or_eq_false_iff] at h
  exact h.2

/-- Behind the word comes no line end, and in front of it come no four blanks. -/
theorem not_imitating {before behind : Stretch}
    (h : imitatesMark (before :: .word markWord :: behind :: rest) = false) :
    behind.charClass ≠ .lineEnd ∧ isWide before = false := by
  rw [imitatesMark, Bool.or_eq_false_iff] at h
  simpa [isImitation] using h.1

theorem doubleQuote_eq_markWord (h : cs.flatMap Pen.doubleQuote = markWord) : cs = markWord := by
  have hbare : ∀ c ∈ cs, Pen.doubleQuote c = [c] := by
    intro c hc
    by_cases hquote : c = '\''
    · have hmem : '\'' ∈ cs.flatMap Pen.doubleQuote :=
        List.mem_flatMap.mpr ⟨c, hc, by rw [hquote]; decide⟩
      rw [h] at hmem
      exact absurd hmem (by decide)
    · rw [Pen.doubleQuote, if_neg (by simpa using hquote)]
  rw [← h, List.flatMap_congr hbare, List.flatMap_singleton']

/-- How the stretches that follow between single quotes join the line so far. -/
structure JoinsLine (line : List Char) (parts : List Stretch) (text : List Char) : Prop where
  start : lineMark.reverse <+: line → text.head? ≠ some '\n'
  blanks : ∀ count rest, parts = .blanks count :: rest → line.head? ≠ some ' '
  word : ∀ cs rest, parts = .word cs :: rest → Rests line
  mark : ∀ rest, parts = .word markWord :: rest → List.replicate 4 ' ' <+: line →
    (text.drop markWord.length).head? ≠ some '\n'

theorem exists_word_of_turns {before : Stretch} (hbefore : before.charClass ≠ .letter)
    (hturns : Stretch.TakeTurns (before :: parts)) : parts = [] ∨ ∃ cs rest, parts = .word cs :: rest := by
  cases parts with
  | nil => exact Or.inl rfl
  | cons next rest =>
      have hnext : next.charClass = .letter := by
        by_contra hnot
        exact hbefore ((List.isChain_cons_cons.mp hturns).1.mpr hnot)
      cases next with
      | blanks count => cases hnext
      | breaks cs => cases hnext
      | word cs => exact Or.inr ⟨cs, rest, rfl⟩

theorem head?_behind_mark (hlevel : level + 8 ≤ Pen.width)
    (h : Laid level folds Pen.doubleQuote (.word markWord :: rest) text)
    (hline : KeepsBlank Pen.doubleQuote level (.word markWord :: rest) text)
    (hproper : ∀ s ∈ rest, s.IsProper)
    (hturns : Stretch.TakeTurns (.word markWord :: rest))
    (hbehind : ∀ s ∈ rest.head?, s.charClass ≠ .lineEnd) :
    (text.drop markWord.length).head? ≠ some '\n' := by
  have hmark : markWord.flatMap Pen.doubleQuote = markWord := by decide
  rcases hline with ⟨behind, htext, hkept⟩
  cases h with
  | @word rest' text' cs h =>
      rw [List.append_cancel_left_eq] at htext
      subst htext
      rw [hmark, List.drop_left]
      cases h with
      | nil => exact nofun
      | blanks count h =>
          have hcount : count ≠ 0 := by
            rintro rfl
            exact (hproper _ List.mem_cons_self).1 rfl
          rcases Nat.exists_eq_succ_of_ne_zero hcount with ⟨n, rfl⟩
          rw [List.replicate_succ]
          exact nofun
      -- A blank behind the word is not folded, since the line has only just begun.
      | fold hfolds hrest hline h =>
          rw [hmark, KeepsBlank] at hkept
          exact absurd (hkept hlevel) (by simp [newLine])
      | breaks cs hline h => exact absurd rfl (hbehind _ rfl)
      | word cs h =>
          have hletter := (List.isChain_cons_cons.mp hturns).1.mp rfl
          exact absurd rfl hletter

theorem joinsLine_newLine {before : Stretch} (hlevel : level + 8 ≤ Pen.width) (hline : Rests line)
    (hbefore : before.charClass ≠ .letter) (h : Laid level folds Pen.doubleQuote parts text)
    (hkept : KeepsBlank Pen.doubleQuote level parts text) (hproper : ∀ s ∈ parts, s.IsProper)
    (hturns : Stretch.TakeTurns (before :: parts)) (hmark : imitatesMark (before :: parts) = false) :
    JoinsLine line parts text where
  start hmarked := absurd hmarked hline.not_marked
  blanks count rest hparts := by
    rcases exists_word_of_turns hbefore hturns with hnil | ⟨cs, more, hword⟩
    · rw [hnil] at hparts
      cases hparts
    · rw [hword] at hparts
      cases hparts
  word _ _ _ := hline
  mark rest hparts _ := by
    subst hparts
    refine head?_behind_mark hlevel h hkept (List.forall_mem_cons.mp hproper).2 hturns.tail ?_
    intro behind hbehind
    rcases List.head?_eq_some_iff.mp hbehind with ⟨more, rfl⟩
    exact (not_imitating hmark).1

theorem le_of_blanks {most count : Nat} (hline : line.head? ≠ some ' ')
    (h : List.replicate most ' ' <+: List.replicate count ' ' ++ line) : most ≤ count := by
  by_contra hmore
  rcases Nat.exists_eq_add_of_lt (Nat.not_le.mp hmore) with ⟨n, rfl⟩
  rw [Nat.add_assoc, ← List.replicate_append_replicate, List.prefix_append_right_inj,
    List.replicate_succ] at h
  rcases h with ⟨tail, rfl⟩
  exact hline rfl

theorem eq_of_mem_doubleQuote {c d : Char} (h : c ∈ Pen.doubleQuote d) : c = d := by
  rw [Pen.doubleQuote] at h
  split at h
  · rename_i hquote
    simpa [beq_iff_eq.mp hquote] using h
  · exact List.mem_singleton.mp h

theorem not_word_of_turns {cs : List Char} (hturns : Stretch.TakeTurns (.word cs :: parts))
    (cs' : List Char) (rest : List Stretch) : parts ≠ .word cs' :: rest := by
  rintro rfl
  exact (List.isChain_cons_cons.mp hturns).1.mp rfl rfl

/-- Behind four blanks the word is the last one, since nothing imitates the mark. -/
theorem JoinsLine.behind_blanks {n : Nat}
    (hjoins : JoinsLine line (.blanks (n + 1) :: rest) (List.replicate (n + 1) ' ' ++ text))
    (h : Laid level folds Pen.doubleQuote rest text)
    (hturns : Stretch.TakeTurns (.blanks (n + 1) :: rest))
    (hmark : imitatesMark (.blanks (n + 1) :: rest) = false) :
    JoinsLine (List.replicate (n + 1) ' ' ++ line) rest text where
  start hmarked := absurd hmarked (rests_gap n).not_marked
  blanks count more hparts := by
    rcases exists_word_of_turns (by simp [Stretch.charClass]) hturns with hnil | ⟨cs, others, hword⟩
    · rw [hnil] at hparts
      cases hparts
    · rw [hword] at hparts
      cases hparts
  word _ _ _ := rests_gap n
  mark more hparts hwide := by
    subst hparts
    have hfour := le_of_blanks (hjoins.blanks _ _ rfl) hwide
    cases more with
    | nil =>
        cases h with
        | word cs h =>
            cases h
            decide
    | cons behind more =>
        have hnarrow := (not_imitating hmark).2
        rw [isWide, decide_eq_false_iff_not] at hnarrow
        exact absurd hfour hnarrow

theorem JoinsLine.behind_word {cs : List Char}
    (hjoins : JoinsLine line (.word cs :: rest) (cs.flatMap Pen.doubleQuote ++ text)) (hne : cs ≠ [])
    (hletters : ∀ c ∈ cs.flatMap Pen.doubleQuote, c ≠ ' ')
    (hturns : Stretch.TakeTurns (.word cs :: rest)) :
    JoinsLine ((cs.flatMap Pen.doubleQuote).reverse ++ line) rest text where
  start hmarked := by
    rcases eq_markWord_of_marked hletters (hjoins.word cs rest rfl) hmarked with ⟨hescaped, hwide⟩
    have hcs := doubleQuote_eq_markWord hescaped
    subst hcs
    have hbehind := hjoins.mark rest rfl hwide
    rwa [hescaped, List.drop_left] at hbehind
  blanks _ _ _ hhead := by
    have hescaped : (cs.flatMap Pen.doubleQuote).reverse ≠ [] := by
      rcases List.exists_cons_of_ne_nil hne with ⟨c, more, rfl⟩
      rw [List.flatMap_cons, Pen.doubleQuote]
      split <;> simp
    rw [List.head?_append_of_ne_nil _ hescaped] at hhead
    exact hletters ' ' (List.mem_reverse.mp (List.mem_of_mem_head? hhead)) rfl
  word cs' more hparts := absurd hparts (not_word_of_turns hturns cs' more)
  mark more hparts := absurd hparts (not_word_of_turns hturns markWord more)

/-- Stretches between single quotes that do not imitate the mark get no remarks. -/
theorem passes_laid (hlevel : level + 8 ≤ Pen.width)
    (h : Laid level folds Pen.doubleQuote parts text) (hproper : ∀ s ∈ parts, s.IsProper)
    (hturns : Stretch.TakeTurns parts) (hmark : imitatesMark parts = false)
    (hjoins : JoinsLine line parts text) : ∃ line', Passes line text line' := by
  -- What the line so far may end with is the invariant: `JoinsLine` holds of the next line, or of
  -- the line with the stretch behind it, and is handed on to the rest.
  induction h generalizing line with
  | nil => exact ⟨line, passes_nil line⟩
  | @blanks rest text count h ih =>
      rcases List.forall_mem_cons.mp hproper with ⟨hstretch, hrest⟩
      have hcount : count ≠ 0 := by
        rintro rfl
        exact hstretch.1 rfl
      rcases Nat.exists_eq_succ_of_ne_zero hcount with ⟨n, rfl⟩
      have hblanks : '\n' ∉ List.replicate (n + 1) ' ' := by simp
      have hpasses := passes_of_notMem hblanks line
      rw [List.reverse_replicate] at hpasses
      have hnext := hjoins.behind_blanks h hturns hmark
      rcases ih hrest hturns.tail (imitatesMark_tail hmark) hnext with ⟨line', hpasses'⟩
      exact ⟨line', hpasses.trans hpasses'⟩
  | fold hfolds hne hkept h ih =>
      rcases List.forall_mem_cons.mp hproper with ⟨-, hrest⟩
      have hline : ¬lineMark.reverse <+: line := fun hmarked => hjoins.start hmarked rfl
      have hnext := joinsLine_newLine hlevel (rests_blanks level rests_nil) (by simp [Stretch.charClass]) h
        hkept hrest hturns hmark
      rw [List.append_nil] at hnext
      rcases ih hrest hturns.tail (imitatesMark_tail hmark) hnext with ⟨line', hpasses⟩
      exact ⟨line', (passes_newLine hline level).trans hpasses⟩
  | @breaks rest text cs hkept h ih =>
      rcases List.forall_mem_cons.mp hproper with ⟨hstretch, hrest⟩
      have hbreaks : ∀ c ∈ cs, Style.isBreak c = true := fun c hc =>
        CharClass.of_eq_lineEnd_iff.mp (hstretch.2 c hc)
      have hline : cs.head? = some '\n' → ¬lineMark.reverse <+: line := by
        intro hhead hmarked
        refine hjoins.start hmarked ?_
        rw [lineEnds, if_pos hhead]
        rfl
      rcases passes_lineEnds hbreaks hstretch.1 hline level with ⟨line', hline', hpasses⟩
      have hnext := joinsLine_newLine hlevel hline' (by simp [Stretch.charClass]) h hkept hrest hturns hmark
      rcases ih hrest hturns.tail (imitatesMark_tail hmark) hnext with ⟨line'', hpasses'⟩
      exact ⟨line'', hpasses.trans hpasses'⟩
  | @word rest text cs h ih =>
      rcases List.forall_mem_cons.mp hproper with ⟨hstretch, hrest⟩
      have hletters : ∀ c ∈ cs.flatMap Pen.doubleQuote, c ≠ ' ' ∧ Style.isBreak c = false := by
        intro c hc
        rcases List.mem_flatMap.mp hc with ⟨d, hd, hmem⟩
        rw [eq_of_mem_doubleQuote hmem]
        exact CharClass.of_eq_letter_iff.mp (hstretch.2 d hd)
      have hfeed : '\n' ∉ cs.flatMap Pen.doubleQuote := fun hmem =>
        absurd (hletters _ hmem).2 (by decide)
      have hnext := hjoins.behind_word hstretch.1 (fun c hc => (hletters c hc).1) hturns
      rcases ih hrest hturns.tail (imitatesMark_tail hmark) hnext with ⟨line', hpasses⟩
      exact ⟨line', (passes_of_notMem hfeed line).trans hpasses⟩

/-!
### In the other styles
-/

/-- Without quotes no line ends with a colon. -/
theorem passes_wordLine (h : WordLine parts) (hlaid : Laid level folds (fun c => [c]) parts text)
    (line : List Char) : ∃ line', line'.head? ≠ some ':' ∧ Passes line text line' := by
  have hword : ∀ {word : List Char}, IsPlainWord word → ∀ line,
      (word.reverse ++ line).head? ≠ some ':' ∧ Passes line word (word.reverse ++ line) := by
    intro word hword line
    have hfeed : '\n' ∉ word := fun hmem =>
      absurd (CharClass.of_eq_letter_iff.mp (hword.letters '\n' hmem)).2 (by decide)
    refine ⟨?_, passes_of_notMem hfeed line⟩
    rw [List.head?_append_of_ne_nil _ (by simpa using hword.ne_nil), List.head?_reverse]
    exact hword.last
  induction h generalizing text line with
  | last hlast =>
      cases hlaid with
      | word cs hnil =>
          cases hnil
          rw [List.flatMap_singleton', List.append_nil]
          exact ⟨_, hword hlast line⟩
  | @more word count rest hfirst hcount h ih =>
      cases hlaid with
      | word cs hgap =>
          rcases hword hfirst line with ⟨hhead, hpasses⟩
          rw [List.flatMap_singleton']
          cases hgap with
          | blanks count hlaid =>
              have hblanks : '\n' ∉ List.replicate count ' ' := by simp
              rcases ih hlaid _ with ⟨line', hline', hpasses'⟩
              exact ⟨line', hline',
                hpasses.trans ((passes_of_notMem hblanks _).trans hpasses')⟩
          | fold hfolds hne hkept hlaid =>
              rcases ih hlaid _ with ⟨line', hline', hpasses'⟩
              exact ⟨line', hline',
                hpasses.trans ((passes_newLine (not_marked_of_head? hhead) level).trans hpasses')⟩

/-- Between double quotes a line ends with a backslash. -/
theorem passes_escaped (h : Escaped level folds cs text) (line : List Char) :
    ∃ line', Passes line text line' := by
  have hfold : ∀ line, Passes line ('\\' :: newLine level) (List.replicate level ' ') := by
    intro line
    have hback : Passes line ['\\'] ('\\' :: line) := passes_of_notMem (by decide) line
    exact hback.trans (passes_newLine (not_marked_of_head? (by simp)) level)
  induction h generalizing line with
  | nil => exact ⟨line, passes_nil line⟩
  | @bare c cs text hbare h ih =>
      have hc : c ≠ '\n' := by
        rintro rfl
        revert hbare
        decide
      rcases ih (c :: line) with ⟨line', hpasses⟩
      have hfirst : Passes line [c] (c :: line) := passes_of_notMem (by simpa using hc.symm) line
      exact ⟨line', hfirst.trans hpasses⟩
  | @escape c cs text hbare h ih =>
      have hfeed : '\n' ∉ Pen.escape c := fun hmem =>
        absurd ((isSign_escape c).1 '\n' hmem) (by decide)
      rcases ih ((Pen.escape c).reverse ++ line) with ⟨line', hpasses⟩
      exact ⟨line', (passes_of_notMem hfeed line).trans hpasses⟩
  | fold hfolds hblank h ih =>
      rcases ih (List.replicate level ' ') with ⟨line', hpasses⟩
      exact ⟨line', (hfold line).trans hpasses⟩
  | foldBlank hfolds h ih =>
      rcases ih ([' ', '\\'] ++ List.replicate level ' ') with ⟨line', hpasses⟩
      have hblank : Passes (List.replicate level ' ') ['\\', ' ']
          ([' ', '\\'] ++ List.replicate level ' ') := passes_of_notMem (by decide) _
      exact ⟨line', (hfold line).trans (hblank.trans hpasses)⟩

/-- A text that may stand between single quotes and imitates no line that gets a remark. -/
def IsUnmarked (s : String) : Prop :=
  Style.allowsSingle s.toList = true → imitatesMark (stretches s.toList) = false

instance (s : String) : Decidable (IsUnmarked s) := inferInstanceAs (Decidable (_ → _))

theorem passes_written {s : String} (hlevel : level + 8 ≤ Pen.width)
    (h : Written level false s.toList text) (hmark : IsUnmarked s) (line : List Char) :
    ∃ line', line'.head? ≠ some ':' ∧ Passes line text line' := by
  have hclosed : ∀ {quote : Char} {body : List Char}, quote ≠ '\n' → quote ≠ ':' →
      (∃ line', Passes (quote :: line) body line') →
      ∃ line', line'.head? ≠ some ':' ∧ Passes line (quote :: body ++ [quote]) line' := by
    rintro quote body hfeed hcolon ⟨line', hpasses⟩
    have hquote : ∀ line, Passes line [quote] (quote :: line) :=
      passes_of_notMem (by simpa using hfeed.symm)
    exact ⟨quote :: line', by simpa using hcolon, (hquote line).trans (hpasses.trans (hquote line'))⟩
  cases h with
  | plain hstyle h =>
      rcases Style.of_eq_plain hstyle with ⟨-, hplain, hne⟩
      exact passes_wordLine (wordLine_of_allowsPlain hne hplain).1 h line
  | single hstyle h =>
      have hsingle := Style.allowsSingle_of_eq_single hstyle
      have hquote : Rests ('\'' :: line) := by
        rintro c hc
        cases hc
        decide
      refine hclosed (by decide) (by decide) (passes_laid hlevel h (fun _ => Stretch.isProper_of_mem)
        (Scalar.stretches_of_allowsSingle hsingle).2 (hmark hsingle) ?_)
      refine ⟨fun hmarked => absurd hmarked hquote.not_marked, fun _ _ _ => by simp,
        fun _ _ _ => hquote, fun _ _ hblanks => ?_⟩
      rcases hblanks with ⟨tail, htail⟩
      exact absurd (List.cons.inj htail).1 (by decide)
  | double hstyle h => exact hclosed (by decide) (by decide) (passes_escaped h _)

theorem passes_simpleKey {k : String} (hsimple : Pen.isSimpleKey k.toList = true)
    (h : Written level true k.toList text) (line : List Char) :
    Passes line (text ++ [':']) ((text ++ [':']).reverse ++ line) := by
  refine passes_of_notMem ?_ line
  rw [List.mem_append, not_or]
  refine ⟨fun hmem => ?_, by decide⟩
  have hfeed := (inLine_of_written h (inLine_of_isSimpleKey hsimple) _ hmem).1
  exact absurd hfeed (by decide)

end Scalars

/-!
## Documents with remarks
-/

/-- In front of a line end a text becomes another one, and the next line starts anew. -/
def Becomes (line text text' : List Char) : Prop :=
  ∀ rest, remarked line (text ++ '\n' :: rest) = text' ++ '\n' :: remarked [] rest

section Documents

variable {noted below : Bool} {column : Nat} {line line' front front' back back' text : List Char}

theorem Passes.becomes_self (h : Passes line text line') (hline : line'.head? ≠ some ':') :
    Becomes line text text := by
  intro rest
  rw [h, remarked_newLine_of_not (not_marked_of_head? hline)]

theorem Passes.becomes (h : Passes line front line') (h' : Becomes line' back back') :
    Becomes line (front ++ back) (front ++ back') := by
  intro rest
  rw [List.append_assoc, h, h', List.append_assoc]

theorem Becomes.newLine (h : Becomes line front front')
    (h' : Becomes (List.replicate column ' ') back back') :
    Becomes line (front ++ (newLine column ++ back)) (front' ++ (newLine column ++ back')) := by
  have hblanks : '\n' ∉ List.replicate column ' ' := by simp
  intro rest
  have hfront := h (List.replicate column ' ' ++ (back ++ '\n' :: rest))
  rw [remarked_append hblanks, List.reverse_replicate, List.append_nil, h'] at hfront
  simpa [Yaml.newLine] using hfront

theorem exists_remark (line : List Char) : ∃ text, Remark true text ∧ Becomes line [] text := by
  by_cases hmarked : lineMark.reverse.isPrefixOf line = true
  · refine ⟨remark, .some rfl (by decide), fun rest => ?_⟩
    rw [List.nil_append, remarked, if_pos rfl, if_pos hmarked]
  · refine ⟨[], .none, fun rest => ?_⟩
    rw [List.nil_append, remarked, if_pos rfl, if_neg hmarked]

theorem passes_singleton {c : Char} (hc : c ≠ '\n') (line : List Char) :
    Passes line [c] (c :: line) :=
  passes_of_notMem (by simpa using hc.symm) line

theorem becomes_scalar {v : Value} (h : ScalarWritten column v text) (hlevel : column + 8 ≤ Pen.width)
    (hmark : OnText IsUnmarked v) (line : List Char) : Becomes line text text := by
  cases h with
  | text h =>
      rcases passes_written hlevel h hmark line with ⟨line', hline', hpasses⟩
      exact hpasses.becomes_self hline'
  | word hword hv =>
      rcases word?_spec hword hv with ⟨hne, hplain, hletters⟩
      rcases passes_wordLine (wordLine_of_allowsPlain hne hplain).1 (laid_word column hne hletters) line
        with ⟨line', hline', hpasses⟩
      exact hpasses.becomes_self hline'

theorem passes_key {k : String} (h : KeyWritten column below k text) (hlevel : column + 10 ≤ Pen.width)
    (hmark : IsUnmarked k) (line : List Char) : ∃ line', Passes line text line' := by
  cases h with
  | simple hsimple h => exact ⟨_, passes_simpleKey hsimple h line⟩
  | @long k text hsimple h =>
      have hquestion : Passes line ['?', ' '] ([' ', '?'] ++ line) := passes_of_notMem (by decide) line
      rcases passes_written hlevel h hmark ([' ', '?'] ++ line) with ⟨line', hline', hpasses⟩
      have hcolon := (passes_newLine (not_marked_of_head? hline') column).trans
        (passes_singleton (by decide : ':' ≠ '\n') _)
      exact ⟨_, hquestion.trans (hpasses.trans hcolon)⟩

mutual

/-- With its remarks a value is written as before, with a remark here and there. -/
theorem exists_remarked_node : ∀ {column : Nat} {below : Bool} {v : Value} {text : List Char},
    NodeWritten false column below v text → column + 10 + 2 * nesting v ≤ Pen.width →
    EachPart IsUnmarked (OnText IsUnmarked) v →
    ∀ line, ∃ text', NodeWritten true column below v text' ∧ Becomes line text text'
  | _, _, _, _, @NodeWritten.scalar _ column below v text h, hroom, hmark, line => by
      have hscalar : OnText IsUnmarked v := by
        cases h with
        | text h => exact hmark
        | word hword hv => cases v <;> trivial
      have hbecomes := becomes_scalar h (Nat.le_trans (Nat.le_add_right _ _) hroom) hscalar (' ' :: line)
      exact ⟨_, .scalar h, (passes_singleton (by decide) line).becomes hbecomes⟩
  | _, _, _, _, .noItems, _, _, line =>
      ⟨_, .noItems, (passes_of_notMem (by decide) line).becomes_self (by simp)⟩
  | _, _, _, _, .noEntries, _, _, line =>
      ⟨_, .noEntries, (passes_of_notMem (by decide) line).becomes_self (by simp)⟩
  | _, _, _, _, .items h, hroom, hmark, line => by
      rw [nesting] at hroom
      rcases exists_remarked_items h (by omega) hmark (' ' :: line) with ⟨text', hwritten, hbecomes⟩
      exact ⟨_, .items hwritten, (passes_singleton (by decide) line).becomes hbecomes⟩
  -- Only a collection below its key stands behind a line end that may get a remark.
  | _, _, _, _, .itemsBelow hremark h, hroom, hmark, line => by
      rw [nesting] at hroom
      rcases exists_remarked_items h (by omega) hmark _ with ⟨text', hwritten, hbecomes⟩
      rcases exists_remark line with ⟨remark, hnew, hline⟩
      cases hremark with
      | none => exact ⟨_, .itemsBelow hnew hwritten, hline.newLine hbecomes⟩
      | some hnoted => cases hnoted
  | _, _, _, _, .entries h, hroom, hmark, line => by
      rw [nesting] at hroom
      rcases exists_remarked_entries h (by omega) hmark (' ' :: line) with ⟨text', hwritten, hbecomes⟩
      exact ⟨_, .entries hwritten, (passes_singleton (by decide) line).becomes hbecomes⟩
  | _, _, _, _, .entriesBelow hremark h, hroom, hmark, line => by
      rw [nesting] at hroom
      rcases exists_remarked_entries h (by omega) hmark _ with ⟨text', hwritten, hbecomes⟩
      rcases exists_remark line with ⟨remark, hnew, hline⟩
      cases hremark with
      | none => exact ⟨_, .entriesBelow hnew hwritten, hline.newLine hbecomes⟩
      | some hnoted => cases hnoted

theorem exists_remarked_items : ∀ {column : Nat} {items : List Value} {text : List Char},
    ItemsWritten false column items text → column + 10 + 2 * itemNesting items ≤ Pen.width →
    EachItemPart IsUnmarked (OnText IsUnmarked) items →
    ∀ line, ∃ text', ItemsWritten true column items text' ∧ Becomes line text text'
  | _, _, _, .last h, hroom, hmark, line => by
      rw [itemNesting] at hroom
      rcases exists_remarked_node h (by omega) hmark.1 ('-' :: line) with ⟨text', hwritten, hbecomes⟩
      exact ⟨_, .last hwritten, (passes_singleton (by decide) line).becomes hbecomes⟩
  | _, _, _, .cons h hrest, hroom, hmark, line => by
      rw [itemNesting] at hroom
      rcases exists_remarked_node h (by omega) hmark.1 ('-' :: line) with ⟨front, hwritten, hbecomes⟩
      rcases exists_remarked_items hrest (by omega) hmark.2 _ with ⟨back, hitems, hbecomes'⟩
      exact ⟨_, .cons hwritten hitems,
        ((passes_singleton (by decide) line).becomes hbecomes).newLine hbecomes'⟩

theorem exists_remarked_entries :
    ∀ {column : Nat} {entries : List (String × Value)} {text : List Char},
    EntriesWritten false column entries text → column + 10 + 2 * entryNesting entries ≤ Pen.width →
    EachEntryPart IsUnmarked (OnText IsUnmarked) entries →
    ∀ line, ∃ text', EntriesWritten true column entries text' ∧ Becomes line text text'
  | _, _, _, .last hkey h, hroom, hmark, line => by
      rw [entryNesting] at hroom
      rcases passes_key hkey (by omega) hmark.1 line with ⟨line', hpasses⟩
      rcases exists_remarked_node h (by omega) hmark.2.1 line' with ⟨text', hwritten, hbecomes⟩
      exact ⟨_, .last hkey hwritten, hpasses.becomes hbecomes⟩
  | _, _, _, .cons hkey h hrest, hroom, hmark, line => by
      rw [entryNesting] at hroom
      rcases passes_key hkey (by omega) hmark.1 line with ⟨line', hpasses⟩
      rcases exists_remarked_node h (by omega) hmark.2.1 line' with ⟨text', hwritten, hbecomes⟩
      rcases exists_remarked_entries hrest (by omega) hmark.2.2 _ with ⟨back, hentries, hbecomes'⟩
      exact ⟨_, .cons hkey hwritten hentries, (hpasses.becomes hbecomes).newLine hbecomes'⟩

end

theorem exists_remarked_render {entries : List (String × Value)} (hne : entries ≠ [])
    (hreadable : EachEntryPart (fun _ => True) IsReadable entries)
    (hmark : EachEntryPart IsUnmarked (OnText IsUnmarked) entries) (hroom : nesting (.map entries) ≤ 36) :
    ∃ text, EntriesWritten true 0 entries text ∧
      Text.replaceAll (lineMark ++ ['\n']) (lineMark ++ remark ++ ['\n'])
        (render (.map entries)).toList = text ++ ['\n'] := by
  rcases exists_written_render hne hreadable (Nat.lt_of_le_of_lt hroom (by decide)) with
    ⟨text, hwritten, hrender⟩
  rw [nesting] at hroom
  rcases exists_remarked_entries hwritten (by rw [Pen.width]; omega) hmark [] with
    ⟨text', hwritten', hbecomes⟩
  refine ⟨text', hwritten', ?_⟩
  rw [hrender, String.toList_ofList, replaceAll_eq_remarked]
  exact hbecomes []

/-- A text that is read as itself, also between lines with remarks. -/
def IsSafe (s : String) : Prop := IsFaithful s ∧ IsUnmarked s

instance (s : String) : Decidable (IsSafe s) := inferInstanceAs (Decidable (_ ∧ _))

/-- A document with its remarks below lines of comments is read as what was written. -/
theorem dataOf_remarked {entries : List (String × Value)} {lines : List (List Char)}
    (hne : entries ≠ []) (hdocument : (Value.map entries).IsDocument)
    (hparts : EachPart (fun k => KeyFits k ∧ IsSafe k) (OnText IsSafe) (.map entries))
    (hroom : nesting (.map entries) ≤ 36) (hlines : ∀ line ∈ lines, IsCommentLine line) :
    dataOf (Lexer.heading lines ++ Text.replaceAll (lineMark ++ ['\n'])
      (lineMark ++ remark ++ ['\n']) (render (.map entries)).toList) =
      .ok (some (.ofValue (.map entries))) := by
  have htext : ∀ {p q : String → Prop}, (∀ s, p s → q s) → ∀ v, OnText p v → OnText q v := by
    intro p q himp v hv
    cases v with
    | str s => exact himp s hv
    | null | bool b | int i | float d | list items | map entries => trivial
  have hreadable := isReadable_of_isDocument _ hdocument
  have hfaithful : EachPart IsFaithful (OnText IsFaithful) (.map entries) :=
    hparts.imp (fun _ hk => hk.2.1) (htext fun _ hs => hs.1)
  have hunmarked : EachPart IsUnmarked (OnText IsUnmarked) (.map entries) :=
    hparts.imp (fun _ hk => hk.2.2) (htext fun _ hs => hs.2)
  have hkeys : EachPart KeyFits (fun _ => True) (.map entries) :=
    hparts.imp (fun _ hk => hk.1) fun _ _ => trivial
  rcases exists_remarked_render hne hreadable hunmarked hroom with ⟨text, hwritten, htext⟩
  rw [htext, dataOf_written hwritten hlines hkeys hreadable, datumOf_eq_ofValue _ hdocument hfaithful]

end Documents

end Yaml
end Roster
