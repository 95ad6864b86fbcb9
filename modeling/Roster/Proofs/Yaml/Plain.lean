import Roster.Proofs.Yaml.Quoted

/-!
# Scalars without quotes are read back

A text that is written without quotes is a line of words with blanks between them, and no word in
it could be taken for markup.  The reader takes word by word up to what ends the scalar.
-/

namespace Roster
namespace Yaml

/-- A word that the reader takes as a whole. -/
structure IsPlainWord (word : List Char) : Prop where
  ne_nil : word ≠ []
  clear : ∀ ch ∈ word, Style.isClear ch = true
  letters : ∀ ch ∈ word, CharClass.of ch = .letter
  first : word.head? ≠ some '#'
  last : word.getLast? ≠ some ':'

/-- Words with blanks between them. -/
inductive WordLine : List Stretch → Prop where
  | last {word : List Char} (hword : IsPlainWord word) : WordLine [.word word]
  | more {word : List Char} {count : Nat} {rest : List Stretch} (hword : IsPlainWord word)
      (hcount : 0 < count) (h : WordLine rest) : WordLine (.word word :: .blanks count :: rest)

namespace Style

theorem isSeparator_eq_false {ch : Char} (hclear : isClear ch = true)
    (hletter : CharClass.of ch = .letter) : isSeparator ch = false := by
  rcases CharClass.of_eq_letter_iff.mp hletter with ⟨hblank, hbreak⟩
  have hcontrol : ∀ other : Char, isClear other = false → ch ≠ other := by
    rintro other hother rfl
    rw [hclear] at hother
    cases hother
  simp [isSeparator, hblank, hbreak, hcontrol '\x00' (by decide), hcontrol '\t' (by decide),
    hcontrol '\r' (by decide)]

theorem indicators_of_word {previous : Char} {word behind : List Char} (hne : word ≠ [])
    (h : holdsIndicator previous (word ++ behind) = false) :
    (isSeparator previous = true → word.head? ≠ some '#') ∧
      (atSeparator behind = true → word.getLast? ≠ some ':') ∧
      ∃ last, holdsIndicator last behind = false := by
  induction word generalizing previous with
  | nil => exact absurd rfl hne
  | cons ch word ih =>
      rw [List.cons_append, holdsIndicator, Bool.or_eq_false_iff, Bool.or_eq_false_iff] at h
      rcases h with ⟨⟨hcolon, hsign⟩, hrest⟩
      have hfirst : isSeparator previous = true → (ch :: word).head? ≠ some '#' := by
        intro hprevious hhead
        cases hhead
        rw [hprevious] at hsign
        cases hsign
      cases word with
      | nil =>
          refine ⟨hfirst, fun hbehind hlast => ?_, ch, hrest⟩
          cases hlast
          rw [List.nil_append, hbehind] at hcolon
          cases hcolon
      | cons next word =>
          rcases ih (List.cons_ne_nil _ _) hrest with ⟨-, hlast, hbehind⟩
          exact ⟨hfirst, by rwa [List.getLast?_cons_cons], hbehind⟩

theorem holdsIndicator_of_blanks {previous : Char} {count : Nat} {behind : List Char}
    (hcount : 0 < count)
    (h : holdsIndicator previous (List.replicate count ' ' ++ behind) = false) :
    holdsIndicator ' ' behind = false := by
  induction count generalizing previous with
  | zero => exact absurd hcount (Nat.lt_irrefl 0)
  | succ count ih =>
      rw [List.replicate_succ, List.cons_append, holdsIndicator, Bool.or_eq_false_iff] at h
      cases count with
      | zero => exact h.2
      | succ count => exact ih (Nat.succ_pos _) h.2

end Style

/-- Stretches of a text on one line that could not be taken for markup. -/
theorem wordLine_of_parts : ∀ {stretches : List Stretch}, (∀ s ∈ stretches, s.IsProper) →
    Scalar.IsClear stretches → Stretch.TakeTurns stretches →
    (∀ s ∈ stretches, s.charClass ≠ .lineEnd) → stretches ≠ [] →
    (stretches.flatMap Stretch.text).head? ≠ some ' ' →
    (stretches.flatMap Stretch.text).getLast? ≠ some ' ' →
    Style.holdsIndicator ' ' (stretches.flatMap Stretch.text) = false → WordLine stretches
  | [], _, _, _, _, hne, _, _, _ => absurd rfl hne
  | .breaks cs :: _, _, _, _, hline, _, _, _, _ => absurd rfl (hline _ List.mem_cons_self)
  | .blanks count :: rest, hproper, _, _, _, _, hhead, _, _ => by
      have hcount := (hproper _ List.mem_cons_self).1
      cases count with
      | zero => exact absurd rfl hcount
      | succ count => exact absurd rfl hhead
  | [.word cs], hproper, hclear, _, _, _, _, _, hindicator => by
      have hcs := hproper _ List.mem_cons_self
      rcases Style.indicators_of_word hcs.1 hindicator with ⟨hfirst, hlast, -⟩
      exact .last ⟨hcs.1, hclear _ List.mem_cons_self, hcs.2, hfirst rfl, hlast rfl⟩
  | .word cs :: .word other :: rest, _, _, hturns, _, _, _, _, _ => by
      rw [Stretch.TakeTurns, List.isChain_cons_cons] at hturns
      simp [Stretch.charClass] at hturns
  | .word cs :: .breaks other :: rest, _, _, _, hline, _, _, _, _ =>
      absurd rfl (hline (.breaks other) (by simp))
  | .word cs :: .blanks count :: rest, hproper, hclear, hturns, hline, _, _, hlast, hindicator => by
      have hcs := hproper _ List.mem_cons_self
      have hcount : 0 < count := by
        refine Nat.pos_of_ne_zero fun hzero => (hproper (.blanks count) (by simp)).1 ?_
        rw [hzero]
        rfl
      simp only [List.flatMap_cons, Stretch.text] at hlast hindicator
      rcases Style.indicators_of_word hcs.1 hindicator with ⟨hfirst, hcolon, last, hbehind⟩
      have hword : IsPlainWord cs := by
        refine ⟨hcs.1, hclear _ List.mem_cons_self, hcs.2, hfirst rfl, hcolon ?_⟩
        rcases Nat.exists_eq_add_of_lt hcount with ⟨more, rfl⟩
        rw [Nat.zero_add, List.replicate_succ]
        rfl
      rw [Stretch.TakeTurns, List.isChain_cons_cons] at hturns
      have hnext := List.isChain_cons.mp hturns.2
      -- What comes behind the blanks is a word, since the text ends with none.
      cases rest with
      | nil =>
          refine absurd ?_ hlast
          rcases Nat.exists_eq_add_of_lt hcount with ⟨more, rfl⟩
          rw [List.flatMap_nil, List.append_nil, Nat.zero_add, List.replicate_succ',
            ← List.append_assoc, List.getLast?_concat]
      | cons next rest =>
          have hletter : next.charClass = .letter := by
            by_contra hnot
            cases (hnext.1 next rfl).mpr hnot
          have hproper' : ∀ s ∈ next :: rest, s.IsProper := fun s hs => hproper s (by simp_all)
          rcases List.exists_cons_of_ne_nil (hproper' next List.mem_cons_self).1 with
            ⟨ch, more, htext⟩
          have hch := (hproper' next List.mem_cons_self).2 ch (htext ▸ List.mem_cons_self)
          have hflat : (next :: rest).flatMap Stretch.text = ch :: (more ++ rest.flatMap Stretch.text) := by
            rw [List.flatMap_cons, htext, List.cons_append]
          refine .more hword hcount (wordLine_of_parts hproper' (fun s hs => hclear s (by simp_all))
            hnext.2 (fun s hs => hline s (by simp_all)) (List.cons_ne_nil _ _) ?_ ?_
            (Style.holdsIndicator_of_blanks hcount hbehind))
          · rw [hflat]
            rintro ⟨⟩
            rw [hletter] at hch
            cases hch
          · rwa [← List.append_assoc, List.getLast?_append_of_ne_nil _ (by rw [hflat]; simp)] at hlast

theorem Style.holdsPair_eq_false {first second : Char → Bool} {cs : List Char}
    (h : (∀ ch ∈ cs, first ch = false) ∨ ∀ ch ∈ cs, second ch = false) :
    holdsPair first second cs = false := by
  induction cs with
  | nil => rfl
  | cons a cs ih =>
      cases cs with
      | nil => rfl
      | cons b cs =>
          have hrest := ih (h.imp (fun h ch hch => h ch (List.mem_cons_of_mem _ hch))
            fun h ch hch => h ch (List.mem_cons_of_mem _ hch))
          rw [holdsPair, hrest, Bool.or_false]
          rcases h with h | h
          · rw [h a List.mem_cons_self, Bool.false_and]
          · rw [h b (by simp), Bool.and_false]

/-- What allows a text to stand without quotes. -/
theorem Style.allowsPlain_iff {cs : List Char} : allowsPlain cs = true ↔
    (∀ ch ∈ cs.head?, isSpace ch = false ∧ isBreak ch = false) ∧
      (∀ ch ∈ cs.getLast?, isSpace ch = false ∧ isBreak ch = false) ∧
      (∀ ch ∈ cs, isBreak ch = false) ∧ looksLikeMarkup cs = false ∧
      ∀ ch ∈ cs, isClear ch = true := by
  simp only [allowsPlain, isMultiline, Bool.and_eq_true, Bool.not_eq_true', Bool.or_eq_false_iff,
    List.all_eq_true, List.any_eq_false, Option.any_eq_false, Bool.not_eq_true]
  tauto

theorem wordLine_of_allowsPlain {cs : List Char} (hne : cs ≠ []) (h : Style.allowsPlain cs = true) :
    WordLine (stretches cs) ∧ Style.allowsSingle cs = true := by
  rcases Style.allowsPlain_iff.mp h with ⟨hhead, hlast, hline, hmarkup, hclear⟩
  have hsingle : Style.allowsSingle cs = true := by
    simp only [Style.allowsSingle, Bool.and_eq_true, Bool.not_eq_true', List.all_eq_true]
    exact ⟨⟨hclear, Style.holdsPair_eq_false (Or.inr hline)⟩,
      Style.holdsPair_eq_false (Or.inl hline)⟩
  rcases Scalar.stretches_of_allowsSingle hsingle with ⟨hclear', hturns⟩
  -- The five premises of `wordLine_of_parts` are the five rules for a text without quotes.
  refine ⟨wordLine_of_parts (fun s hs => Stretch.isProper_of_mem hs) hclear' hturns ?_ ?_ ?_ ?_ ?_,
    hsingle⟩
  · intro s hs hclass
    have hproper := Stretch.isProper_of_mem hs
    rcases List.exists_mem_of_ne_nil _ hproper.1 with ⟨ch, hch⟩
    have hbreak := CharClass.of_eq_lineEnd_iff.mp ((hproper.2 ch hch).trans hclass)
    have hmem : ch ∈ cs := by
      rw [← Stretch.flatMap_text_stretches cs]
      exact List.mem_flatMap.mpr ⟨s, hs, hch⟩
    rw [hline ch hmem] at hbreak
    cases hbreak
  · intro hnil
    have hflat := Stretch.flatMap_text_stretches cs
    rw [hnil] at hflat
    exact hne hflat.symm
  · rw [Stretch.flatMap_text_stretches]
    intro hblank
    cases (hhead ' ' hblank).1
  · rw [Stretch.flatMap_text_stretches]
    intro hblank
    cases (hlast ' ' hblank).1
  · rw [Stretch.flatMap_text_stretches]
    rcases List.exists_cons_of_ne_nil hne with ⟨ch, rest, rfl⟩
    simp only [Style.looksLikeMarkup, Style.startsWithIndicator, Bool.or_eq_false_iff] at hmarkup
    rcases hmarkup with ⟨⟨-, hleading, hindicator⟩, hrest⟩
    have hsign : ch ≠ '#' := by
      rintro rfl
      revert hleading
      decide
    have hcolon : (ch == ':' && Style.atSeparator rest) = false := by
      by_cases hch : ch = ':'
      · simpa [hch] using hindicator
      · simp [hch]
    rw [Style.holdsIndicator, hcolon, hrest]
    simp [hsign]

namespace Scalar

variable {c : Cursor} {back tail word written : List Char} {level : Nat} {folds : Bool}

/-!
## Words and gaps
-/

/-- What ends a word: a separator, or a colon in front of one. -/
def EndsWord (tail : List Char) : Prop := plainWord false tail = []

theorem plainWord_append (hword : IsPlainWord word) (htail : EndsWord tail) :
    plainWord false (word ++ tail) = word := by
  rcases hword with ⟨-, hclear, hletters, -, hlast⟩
  induction word with
  | nil => exact htail
  | cons ch word ih =>
      rcases List.forall_mem_cons.mp hclear with ⟨hch, hclear⟩
      rcases List.forall_mem_cons.mp hletters with ⟨hletter, hletters⟩
      have hcolon : (ch == ':' && endsKey false (word ++ tail)) = false := by
        cases word with
        | nil =>
            have hne : ch ≠ ':' := by simpa using hlast
            simp [hne]
        | cons next word =>
            have hnext := Style.isSeparator_eq_false (hclear next List.mem_cons_self)
              (hletters next List.mem_cons_self)
            simp [endsKey, hnext]
      rw [List.cons_append, plainWord, if_neg (by
        simp [Style.isSeparator_eq_false hch hletter, hcolon])]
      cases word with
      | nil => exact congrArg _ htail
      | cons next word => rw [ih hclear hletters (by rwa [List.getLast?_cons_cons] at hlast)]

theorem endsWord_of_isSeparator {ch : Char} (h : Style.isSeparator ch = true) :
    EndsWord (ch :: back) := by
  rw [EndsWord, plainWord, if_pos (by simp [h])]

theorem plainGap_blanks {count : Nat} (hback : StartsVisible back)
    (h : c.rest = List.replicate count ' ' ++ back) :
    plainGap c = ⟨List.replicate count ' ', c.forward count, false⟩ := by
  have htaken := Cursor.takeWhile_blanks (by rfl : Cursor.isSpace ' ' = true) h fun ch hch => by
    have hgap := (hback.head ch hch).1
    simp only [Cursor.isGap, Bool.or_eq_false_iff] at hgap
    exact hgap.1
  have hrest := Cursor.rest_forward_blanks h
  have hnone : (c.forward count).lineBreak? = none :=
    Cursor.lineBreak?_eq_none fun ch hch => (hback.head ch (hrest ▸ hch)).2
  simp only [plainGap, htaken, hnone, List.reverse_replicate]

theorem plainBreaks_blanks {count : Nat} (h : c.rest = List.replicate count ' ' ++ back)
    (hback : ∀ ch ∈ back.head?, Cursor.isSpace ch = false ∧ Style.isBreak ch = false) :
    plainBreaks c.rest.length [] c = (some [], c.forward count) := by
  have hskip := Cursor.skipWhile_blanks (by rfl : Cursor.isSpace ' ' = true) h fun ch hch =>
    (hback ch hch).1
  have hnone : (c.forward count).lineBreak? = none :=
    Cursor.lineBreak?_eq_none fun ch hch => (hback ch (Cursor.rest_forward_blanks h ▸ hch)).2
  rw [h, List.length_append, List.length_replicate]
  cases count with
  | zero =>
      cases hlength : 0 + back.length with
      | zero => rfl
      | succ bound => simp only [plainBreaks, hskip, hnone]
  | succ more =>
      rw [Nat.add_right_comm]
      simp only [plainBreaks, hskip, hnone]

theorem lineBreak_newLine (h : c.rest = newLine level ++ back) :
    c.takeWhile Cursor.isSpace = ([], c) ∧ c.lineBreak? = some (lineEnd '\n', c.forward 1) ∧
      (c.forward 1).rest = List.replicate level ' ' ++ back ∧
      (0 < level → (c.forward 1).atDocumentLine = false) := by
  have hrest : (c.forward 1).rest = List.replicate level ' ' ++ back := Cursor.rest_forward_one h
  refine ⟨Cursor.takeWhile_eq_nil fun ch hch => ?_, Cursor.lineBreak?_of_isBreak h rfl, hrest,
    fun hlevel => Cursor.atDocumentLine_eq_false fun ch hch => ?_⟩
  · rw [h] at hch
    cases hch
    rfl
  · rcases Nat.exists_eq_add_of_lt hlevel with ⟨more, hmore⟩
    rw [hrest, hmore, Nat.zero_add, List.replicate_succ] at hch
    cases hch
    decide

theorem plainGap_newLine (hlevel : 0 < level) (hback : StartsVisible back)
    (h : c.rest = newLine level ++ back) :
    plainGap c = ⟨[' '], c.forward (newLine level).length, true⟩ := by
  rcases lineBreak_newLine h with ⟨htaken, hbreak, hrest, hline⟩
  have hbreaks := plainBreaks_blanks hrest fun ch hch => by
    have hgap := (hback.head ch hch).1
    simp only [Cursor.isGap, Bool.or_eq_false_iff] at hgap
    exact ⟨hgap.1, (hback.head ch hch).2⟩
  simp only [plainGap, htaken, hbreak, hline hlevel, hbreaks, Bool.false_eq_true, if_false]
  rw [Cursor.forward_forward, newLine, List.length_cons, List.length_replicate, Nat.add_comm 1]
  rfl

/-- The end of a line ends the words on it unless the next line is indented further. -/
theorem plainGap_lineEnd
    (hback : ∀ ch ∈ back.head?, Cursor.isSpace ch = false ∧ Style.isBreak ch = false)
    (h : c.rest = newLine level ++ back) :
    (plainGap c).cursor = c.forward (1 + level) ∧ (plainGap c).brokeLine = true := by
  rcases lineBreak_newLine h with ⟨htaken, hbreak, hrest, hline⟩
  have hbreaks := plainBreaks_blanks hrest hback
  rw [Cursor.forward_forward] at hbreaks
  simp only [plainGap, htaken, hbreak, hbreaks]
  cases hdocument : (c.forward 1).atDocumentLine with
  | false => exact ⟨rfl, rfl⟩
  | true =>
      have hzero : level = 0 := by
        by_contra hne
        rw [hline (Nat.pos_of_ne_zero hne)] at hdocument
        cases hdocument
      rw [hzero]
      exact ⟨rfl, rfl⟩

/-!
## A line of words
-/

def StopsAt (indent : Int) (gap : Gap) : Prop :=
  gap.reversed = [] ∨ gap.cursor.peek = '#' ∨ (gap.cursor.column : Int) < indent

theorem inLine_of_isClear {ch : Char} (hclear : Style.isClear ch = true)
    (hletter : CharClass.of ch = .letter) : Style.isBreak ch = false ∧ ch ≠ '\uFEFF' := by
  refine ⟨(CharClass.of_eq_letter_iff.mp hletter).2, ?_⟩
  rintro rfl
  revert hclear
  decide

variable {indent : Int} {stretches : List Stretch}

theorem plainFrom_word (hword : IsPlainWord word) (htail : EndsWord tail)
    (hrest : c.rest = word ++ tail)
    (bound : Nat) (reversed blanks : List Char) (broke : Bool) (stop : Mark) :
    plainFrom false indent (bound + 1) reversed ⟨blanks, c, broke⟩ stop =
      if (plainGap (c.forward word.length)).reversed.isEmpty ||
          (plainGap (c.forward word.length)).cursor.peek == '#' ||
          ((plainGap (c.forward word.length)).cursor.column : Int) < indent then
        (⟨String.ofList (word.reverse ++ (blanks ++ reversed)).reverse,
          (c.forward word.length).mark, (plainGap (c.forward word.length)).brokeLine⟩,
          (plainGap (c.forward word.length)).cursor)
      else plainFrom false indent bound (word.reverse ++ (blanks ++ reversed))
        (plainGap (c.forward word.length)) (c.forward word.length).mark := by
  have hpeek : c.peek ≠ '#' := by
    rcases List.exists_cons_of_ne_nil hword.ne_nil with ⟨ch, more, rfl⟩
    rw [Cursor.peek_of_rest hrest]
    simpa using hword.first
  have hread : plainWord false c.rest = word := by
    rw [hrest]
    exact plainWord_append hword htail
  rw [plainFrom]
  simp only [beq_iff_eq, hpeek, if_false, hread, List.isEmpty_iff, hword.ne_nil, Bool.not_false,
    Bool.true_and]

theorem startsVisible_of_wordLine (h : WordLine stretches)
    (hlaid : Laid level folds (fun ch => [ch]) stretches written) :
    ∃ ch more, written = ch :: more ∧ IsVisible ch ∧ ch ≠ '#' := by
  have hfirst : ∀ {word text : List Char}, IsPlainWord word →
      ∃ ch more, word.flatMap (fun ch => [ch]) ++ text = ch :: more ∧ IsVisible ch ∧ ch ≠ '#' := by
    intro word text hword
    rcases List.exists_cons_of_ne_nil hword.ne_nil with ⟨ch, more, rfl⟩
    exact ⟨ch, _, rfl, isVisible_of_isClear (hword.clear ch List.mem_cons_self)
      (hword.letters ch List.mem_cons_self), by simpa using hword.first⟩
  cases h with
  | last hword =>
      cases hlaid with
      | word _ _ => exact hfirst hword
  | more hword _ _ =>
      cases hlaid with
      | word _ _ => exact hfirst hword

/-- Between two words stand the blanks of the text, or a fold; either is read as those blanks. -/
theorem plainGap_of_laid (hlevel : 0 < level) (hindent : indent ≤ level) {count : Nat}
    (h : WordLine stretches)
    (hlaid : Laid level folds (fun ch => [ch]) (.blanks count :: stretches) written)
    (hcount : 0 < count) (hrest : c.rest = written ++ tail) (hcolumn : indent ≤ c.column) :
    ∃ gap text broke, written = gap ++ text ∧ Laid level folds (fun ch => [ch]) stretches text ∧
      EndsWord (gap ++ (text ++ tail)) ∧
      plainGap c = ⟨List.replicate count ' ', c.forward gap.length, broke⟩ ∧
      indent ≤ (c.forward gap.length).column := by
  cases hlaid with
  | @blanks rest text _ hlaid =>
      rcases startsVisible_of_wordLine h hlaid with ⟨ch, more, rfl, hvisible, -⟩
      rw [List.append_assoc] at hrest
      have hgap := plainGap_blanks ⟨ch, _, rfl, hvisible⟩ hrest
      have hplace := Cursor.place_forward_of_inLine hrest fun ch hch => by
        rw [List.eq_of_mem_replicate hch]
        decide
      refine ⟨_, _, false, rfl, hlaid, ?_, by rw [List.length_replicate]; exact hgap, ?_⟩
      · rcases Nat.exists_eq_add_of_lt hcount with ⟨n, rfl⟩
        rw [Nat.zero_add, List.replicate_succ]
        exact endsWord_of_isSeparator rfl
      · rw [hplace.2]
        omega
  -- A fold begins a line at the level of the scalar, which is not left of the indentation asked
  -- for.
  | @fold rest text hfolds hne hline hlaid =>
      rcases startsVisible_of_wordLine h hlaid with ⟨ch, more, rfl, hvisible, -⟩
      rw [List.append_assoc] at hrest
      have hgap := plainGap_newLine hlevel ⟨ch, _, rfl, hvisible⟩ hrest
      refine ⟨_, _, true, rfl, hlaid, endsWord_of_isSeparator rfl, hgap, ?_⟩
      have hline : (c.forward 1).column = 0 :=
        Cursor.column_forward_one_of_isBreak hrest rfl
      have hplace := Cursor.place_forward_of_inLine (Cursor.rest_forward_one hrest) fun ch hch => by
        rw [List.eq_of_mem_replicate hch]
        decide
      rw [hline, Cursor.forward_forward, List.length_replicate, Nat.add_comm 1, Nat.zero_add] at hplace
      rw [newLine, List.length_cons, List.length_replicate, hplace.2]
      exact hindent

theorem plainFrom_wordLine (hlevel : 0 < level) (hindent : indent ≤ level) (h : WordLine stretches)
    (hlaid : Laid level folds (fun ch => [ch]) stretches written) (htail : EndsWord tail)
    (hrest : c.rest = written ++ tail) (hcolumn : indent ≤ c.column + 1)
    (hstop : StopsAt indent (plainGap (c.forward written.length))) (bound : Nat)
    (hbound : written.length < bound) (reversed blanks : List Char) (broke : Bool) (stop : Mark) :
    plainFrom false indent bound reversed ⟨blanks, c, broke⟩ stop =
      (⟨String.ofList (reversed.reverse ++ (blanks.reverse ++ stretches.flatMap Stretch.text)),
        (c.forward written.length).mark, (plainGap (c.forward written.length)).brokeLine⟩,
        (plainGap (c.forward written.length)).cursor) := by
  -- The gap behind a word is where the reader decides: behind the last word it stops, and behind
  -- any other one it goes on, since a visible character follows that starts no comment.
  induction h generalizing c written bound reversed blanks broke stop with
  | @last word hword =>
      rcases Nat.exists_eq_add_of_lt hbound with ⟨bound, rfl⟩
      cases hlaid with
      | word _ hnil =>
          cases hnil
          simp only [List.flatMap_singleton', List.append_nil] at hrest hstop ⊢
          rw [plainFrom_word hword htail hrest, if_pos (by
            rcases hstop with h | h | h
            · simp [h]
            · simp [h]
            · simp [h])]
          simp [Stretch.text]
  | @more word count rest hword hcount h ih =>
      rcases Nat.exists_eq_add_of_lt hbound with ⟨bound, rfl⟩
      cases hlaid with
      | @word _ written _ hlaid =>
          rw [List.flatMap_singleton'] at hrest hstop hbound ⊢
          rw [List.append_assoc] at hrest
          have hinLine := fun ch hch =>
            inLine_of_isClear (hword.clear ch hch) (hword.letters ch hch)
          have hplace := Cursor.place_forward_of_inLine hrest hinLine
          have hpositive := List.length_pos_of_ne_nil hword.ne_nil
          rcases plainGap_of_laid hlevel hindent h hlaid hcount
            (Cursor.rest_forward_append hrest) (by rw [hplace.2]; omega) with
            ⟨gap, text, broke', rfl, hlaid', hends, hgap, hcolumn'⟩
          rw [List.append_assoc] at hrest
          rcases startsVisible_of_wordLine h hlaid' with ⟨ch, more, rfl, -, hsign⟩
          have hnext := Cursor.rest_forward_append (Cursor.rest_forward_append hrest)
          have hgoes : ¬((plainGap (c.forward word.length)).reversed.isEmpty ||
              (plainGap (c.forward word.length)).cursor.peek == '#' ||
              decide (((plainGap (c.forward word.length)).cursor.column : Int) < indent)) = true := by
            rw [hgap]
            simp only [Cursor.peek_of_rest hnext, List.isEmpty_iff, List.replicate_eq_nil_iff,
              Bool.or_eq_true, beq_iff_eq, decide_eq_true_eq]
            rintro ((hnone | hcomment) | hoff)
            · omega
            · exact hsign hcomment
            · omega
          rw [plainFrom_word hword hends hrest, if_neg hgoes, hgap]
          simp only [List.length_append] at hbound hstop ⊢
          rw [← Nat.add_assoc, ← Cursor.forward_forward, ← Cursor.forward_forward] at hstop ⊢
          rw [ih hlaid' hnext (by omega) hstop _ (by omega)]
          simp [Stretch.text, List.flatMap_cons]

/-- A text without quotes is read back up to what ends it. -/
theorem plain_of_laid {cs : List Char} (hlevel : 0 < level) (hindent : indent ≤ level)
    (hne : cs ≠ [])
    (hplain : Style.allowsPlain cs = true)
    (hlaid : Laid level folds (fun ch => [ch]) (Yaml.stretches cs) written) (htail : EndsWord tail)
    (hrest : c.rest = written ++ tail) (hcolumn : indent ≤ c.column + 1)
    (hstop : StopsAt indent (plainGap (c.forward written.length))) :
    plain false indent c =
      (⟨String.ofList cs, (c.forward written.length).mark,
        (plainGap (c.forward written.length)).brokeLine⟩,
        (plainGap (c.forward written.length)).cursor) := by
  have hwords := (wordLine_of_allowsPlain hne hplain).1
  rw [plain, plainFrom_wordLine hlevel hindent hwords hlaid htail hrest hcolumn hstop _
    (by rw [hrest, List.length_append]; omega), Stretch.flatMap_text_stretches]
  rfl

end Scalar
end Yaml
end Roster
