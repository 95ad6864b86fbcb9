import Mathlib.Data.List.TakeWhile
import Mathlib.Data.Nat.Digits.Defs
import Roster.Proofs.Yaml.Printer
import Roster.Yaml.Scalar

/-!
# Quoted scalars are read back

Between double quotes every text is read back as it was written.  Between single quotes the line
ends of a text stand as they are and the reader folds them, which `reread` describes.
-/

namespace Roster
namespace Yaml

/-- A stretch as it is read. The next line of the control characters counts as a line feed, and
where it comes first it is folded. -/
def Stretch.reread : Stretch → List Char
  | .breaks (first :: rest) =>
      if first = '\x85' then (if rest.isEmpty then [' '] else rest.map lineEnd)
      else first :: rest.map lineEnd
  | stretch => stretch.text

/-- A text as it is read when it was written. Between double quotes nothing changes. -/
def reread (cs : List Char) : List Char :=
  if Style.allowsSingle cs then (stretches cs).flatMap Stretch.reread else cs

namespace Scalar

/-!
## Escapes
-/

theorem hexValue?_digitChar {d : Nat} (h : d < 16) : hexValue? d.digitChar.toUpper = some d := by
  have hall : ∀ d : Fin 16, hexValue? (Nat.digitChar d).toUpper = some d.val := by decide
  exact hall ⟨d, h⟩

theorem hexNumber_append_singleton (digits : List Char) (c : Char) :
    hexNumber (digits ++ [c]) = 16 * hexNumber digits + (hexValue? c).getD 0 :=
  List.foldl_append

theorem hexNumber_hexDigits (n : Nat) :
    (∀ c ∈ (Text.hexDigits n).map Char.toUpper, (hexValue? c).isSome = true) ∧
      hexNumber ((Text.hexDigits n).map Char.toUpper) = n := by
  induction n using Nat.strong_induction_on with
  | h n ih =>
    rw [Text.hexDigits, Nat.toDigits_eq_if (by decide)]
    split
    · rename_i hlt
      simp [hexValue?_digitChar hlt, hexNumber]
    · rename_i hge
      have hdigit := hexValue?_digitChar (Nat.mod_lt n (by decide : 16 > 0))
      rcases ih (n / 16) (by omega) with ⟨hall, hnumber⟩
      rw [Text.hexDigits] at hall hnumber
      rw [List.map_append, List.map_singleton, hexNumber_append_singleton, hnumber, hdigit,
        Option.getD_some, List.forall_mem_append, Nat.div_add_mod]
      exact ⟨⟨hall, by simp [hdigit]⟩, rfl⟩

theorem hex_spec {width n : Nat} (hwidth : 0 < width) (h : n < 16 ^ width) :
    (Pen.hex width n).length = width ∧
      (∀ c ∈ Pen.hex width n, (hexValue? c).isSome = true) ∧ hexNumber (Pen.hex width n) = n := by
  rcases hexNumber_hexDigits n with ⟨hall, hnumber⟩
  have hlength := (Nat.length_toDigits_le_iff (by decide : 1 < 16) hwidth).mpr h
  have hzeros : ∀ count : Nat,
      (List.replicate count '0').foldl (fun n c => 16 * n + (hexValue? c).getD 0) 0 = 0 := by
    intro count
    induction count with
    | zero => rfl
    | succ count ih => exact ih
  rw [Pen.hex, Text.hexPadded, List.map_append, List.map_replicate]
  refine ⟨?_, ?_, ?_⟩
  · simp only [List.length_append, List.length_replicate, List.length_map, Text.hexDigits]
    omega
  · rw [List.forall_mem_append]
    refine ⟨fun c hc => ?_, hall⟩
    rw [List.eq_of_mem_replicate hc]
    decide
  · rw [hexNumber, List.foldl_append]
    refine Eq.trans ?_ hnumber
    exact congrArg (List.foldl _ · _) (hzeros _)

theorem charOfCode_toNat (c : Char) : charOfCode c.toNat = .ok c := by
  have hvalid : c.toNat < 0xD800 ∨ 0xDFFF < c.toNat ∧ c.toNat < 0x110000 := c.valid
  have hlt : c.toNat < 0x110000 := by omega
  have hscalar : c.toNat < 0xD800 ∨ 0xDFFF < c.toNat := by omega
  rw [charOfCode, if_pos hlt, if_pos (by simpa using hscalar), Char.ofNat_toNat]

theorem codeEscape_hex (start : Mark) {width : Nat} {c : Cursor} {ch : Char} {back : List Char}
    (hwidth : 0 < width) (hlt : ch.toNat < 16 ^ width)
    (h : c.rest = Pen.hex width ch.toNat ++ back) :
    codeEscape start width c = .ok (ch, c.forward width) := by
  rcases hex_spec hwidth hlt with ⟨hlength, hdigits, hnumber⟩
  have htaken : (c.rest.take width).takeWhile (fun ch => (hexValue? ch).isSome) =
      Pen.hex width ch.toNat := by
    rw [h, List.take_left' hlength]
    exact List.takeWhile_eq_self_iff.mpr hdigits
  rw [codeEscape]
  simp only [htaken, hlength, Nat.lt_irrefl, if_false, hnumber, charOfCode_toNat]
  rfl

theorem lookup_letterEscapes {c letter : Char} (h : Pen.letterEscapes.lookup c = some letter) :
    letterEscapes.lookup letter = some c := by
  have hall : ∀ pair ∈ Pen.letterEscapes, letterEscapes.lookup pair.2 = some pair.1 := by decide
  rcases List.lookup_eq_some_iff.mp h with ⟨front, back, hsplit, -⟩
  exact hall (c, letter) (hsplit ▸ List.mem_append_right _ List.mem_cons_self)

/-!
## Line ends
-/

/-- Neither a blank nor a line end. -/
def IsVisible (ch : Char) : Prop := Cursor.isGap ch = false ∧ Style.isBreak ch = false

instance (ch : Char) : Decidable (IsVisible ch) := instDecidableAnd

/-- Some visible character comes next. -/
def StartsVisible (cs : List Char) : Prop := ∃ ch rest, cs = ch :: rest ∧ IsVisible ch

theorem StartsVisible.head {cs : List Char} (h : StartsVisible cs) :
    ∀ ch ∈ cs.head?, IsVisible ch := by
  rcases h with ⟨ch, rest, rfl, hvisible⟩
  rintro _ ⟨⟩
  exact hvisible

theorem ne_of_isBreak {ch : Char} (h : Style.isBreak ch = true) :
    ch ≠ '-' ∧ ch ≠ '.' ∧ Cursor.isGap ch = false := by
  rcases Cursor.isBreak_iff.mp h with rfl | rfl | rfl | rfl <;> decide

variable (start : Mark) {level : Nat} {breaks back : List Char} {c : Cursor}

theorem quotedBreaks_eq (hlevel : 0 < level) (hbreaks : ∀ ch ∈ breaks, Style.isBreak ch = true)
    (hback : StartsVisible back) (bound : Nat) (hbound : breaks.length < bound)
    (reversed : List Char) (h : c.rest = breaks ++ (List.replicate level ' ' ++ back)) :
    quotedBreaks start bound reversed c =
      .ok ((breaks.map lineEnd).reverse ++ reversed, c.forward (breaks.length + level)) := by
  -- The induction is on the line ends that are left; the indentation behind them ends it.
  induction breaks generalizing bound reversed c with
  | nil =>
      rcases Nat.exists_eq_add_of_lt hlevel with ⟨more, hmore⟩
      rcases Nat.exists_eq_add_of_lt hbound with ⟨bound, rfl⟩
      have hline : c.atDocumentLine = false := by
        refine Cursor.atDocumentLine_eq_false fun ch hch => ?_
        rw [h, hmore, Nat.zero_add, List.nil_append, List.replicate_succ] at hch
        cases hch
        decide
      have hskip := Cursor.skipWhile_blanks (by rfl : Cursor.isGap ' ' = true) h fun ch hch =>
        (hback.head ch hch).1
      have hnone : (c.forward level).lineBreak? = none := by
        refine Cursor.lineBreak?_eq_none fun ch hch => ?_
        rw [Cursor.rest_forward, h, List.nil_append, List.drop_left' List.length_replicate] at hch
        exact (hback.head ch hch).2
      simp only [quotedBreaks, hline, hskip, hnone, Bool.false_eq_true, if_false, List.length_nil,
        List.map_nil, List.reverse_nil, List.nil_append, Nat.zero_add]
  | cons first breaks ih =>
      rcases Nat.exists_eq_add_of_lt hbound with ⟨bound, rfl⟩
      rcases List.forall_mem_cons.mp hbreaks with ⟨hfirst, hrest⟩
      have hne := ne_of_isBreak hfirst
      have hhead : ∀ ch ∈ c.rest.head?, ch = first := by
        intro ch hch
        rw [h] at hch
        exact (Option.some.inj hch).symm
      have hline : c.atDocumentLine = false :=
        Cursor.atDocumentLine_eq_false fun ch hch => hhead ch hch ▸ ⟨hne.1, hne.2.1⟩
      have hskip : c.skipWhile Cursor.isGap = c :=
        Cursor.skipWhile_eq_self fun ch hch => hhead ch hch ▸ hne.2.2
      rw [List.length_cons] at hbound ⊢
      have hbehind := ih hrest (breaks.length + 1 + bound) (by omega) (lineEnd first :: reversed)
        (Cursor.rest_forward_one h)
      simp only [quotedBreaks, hline, hskip, Cursor.lineBreak?_of_isBreak h hfirst,
        Bool.false_eq_true, if_false, hbehind, Cursor.forward_forward, List.map_cons,
        List.reverse_cons, List.append_assoc, List.singleton_append]
      rw [show 1 + (breaks.length + level) = breaks.length + 1 + level by omega]

theorem atEnd_eq_false (hback : StartsVisible back) (h : c.rest = back) : c.atEnd = false := by
  rcases hback with ⟨ch, rest, rfl, -⟩
  rw [Cursor.atEnd, h]
  rfl

theorem quotedSpaces_blanks {count : Nat} (hback : StartsVisible back)
    (h : c.rest = List.replicate count ' ' ++ back) :
    quotedSpaces start c = .ok (List.replicate count ' ', c.forward count) := by
  have htaken := Cursor.takeWhile_blanks (by rfl : Cursor.isGap ' ' = true) h fun ch hch =>
    (hback.head ch hch).1
  have hrest := Cursor.rest_forward_blanks h
  have hnone : (c.forward count).lineBreak? = none :=
    Cursor.lineBreak?_eq_none fun ch hch => (hback.head ch (hrest ▸ hch)).2
  simp only [quotedSpaces, htaken, atEnd_eq_false hback hrest, hnone, Bool.false_eq_true, if_false,
    List.reverse_replicate]

theorem quotedSpaces_breaks {first : Char} (hlevel : 0 < level)
    (hfirst : Style.isBreak first = true) (hbreaks : ∀ ch ∈ breaks, Style.isBreak ch = true)
    (hback : StartsVisible back)
    (h : c.rest = first :: (breaks ++ (List.replicate level ' ' ++ back))) :
    quotedSpaces start c = .ok (foldBreaks (lineEnd first) (breaks.map lineEnd).reverse,
      c.forward (1 + breaks.length + level)) := by
  have htaken : c.takeWhile Cursor.isGap = ([], c) := by
    refine Cursor.takeWhile_eq_nil fun ch hch => ?_
    rw [h] at hch
    cases hch
    exact (ne_of_isBreak hfirst).2.2
  have hatEnd : c.atEnd = false := by
    rw [Cursor.atEnd, h]
    rfl
  have hrest := Cursor.rest_forward_one h
  have hread := quotedBreaks_eq start hlevel hbreaks hback (c.forward 1).rest.length
    (by rw [hrest]; simp only [List.length_append, List.length_replicate]; omega) [] hrest
  simp only [quotedSpaces, htaken, hatEnd, Cursor.lineBreak?_of_isBreak h hfirst, hread,
    Bool.false_eq_true, if_false, Cursor.forward_forward, List.append_nil, Nat.add_assoc]
  rfl

/-- A fold is read as the blank that it stands for. -/
theorem quotedSpaces_newLine (hlevel : 0 < level) (hback : StartsVisible back)
    (h : c.rest = newLine level ++ back) :
    quotedSpaces start c = .ok ([' '], c.forward (newLine level).length) := by
  have hread := quotedSpaces_breaks start hlevel (by rfl : Style.isBreak '\n' = true)
    (List.forall_mem_nil fun ch => Style.isBreak ch = true) hback h
  rw [hread, newLine, List.length_cons, List.length_replicate, Nat.add_comm level 1]
  rfl

theorem head_lineEnds (level : Nat) (first : Char) (rest : List Char) :
    (lineEnds level (first :: rest)).head? = some first := by
  by_cases hfeed : first = '\n'
  · simp [lineEnds, hfeed]
  · simp [lineEnds, hfeed]

theorem quotedSpaces_lineEnds {cs : List Char} (hlevel : 0 < level) (hne : cs ≠ [])
    (hcs : ∀ ch ∈ cs, Style.isBreak ch = true) (hback : StartsVisible back)
    (h : c.rest = lineEnds level cs ++ back) :
    quotedSpaces start c =
      .ok ((Stretch.reread (.breaks cs)).reverse, c.forward (lineEnds level cs).length) := by
  rcases List.exists_cons_of_ne_nil hne with ⟨first, rest, rfl⟩
  rcases List.forall_mem_cons.mp hcs with ⟨hfirst, hrest⟩
  by_cases hfeed : first = '\n'
  · -- A line feed is written twice, so the one that is folded is not of the text.
    subst hfeed
    have hread := quotedSpaces_breaks start hlevel hfirst hcs hback (by simpa [lineEnds] using h)
    rw [hread]
    have hlength : (lineEnds level ('\n' :: rest)).length = 1 + ('\n' :: rest).length + level := by
      simp [lineEnds]
      omega
    rw [hlength]
    simp [foldBreaks, lineEnd, Stretch.reread]
  · have hread := quotedSpaces_breaks start hlevel hfirst hrest hback
      (by simpa [lineEnds, hfeed] using h)
    rw [hread]
    have hlength : (lineEnds level (first :: rest)).length = 1 + rest.length + level := by
      simp [lineEnds, hfeed]
      omega
    rw [hlength, Stretch.reread]
    by_cases hnext : first = '\x85'
    · subst hnext
      cases rest with
      | nil => rfl
      | cons ch rest => simp [foldBreaks, lineEnd]
    · simp [foldBreaks, lineEnd, hnext, hfeed]

/-!
## From one character to the next
-/

/-- Whatever was read before, the reader goes on over some characters to the end of the scalar and
adds some text. -/
def ReadsOn (double : Bool) (start : Mark) (c : Cursor) (text : List Char) (count : Nat) : Prop :=
  ∀ bound reversed, c.rest.length < bound →
    quotedFrom double start bound reversed c =
      .ok (String.ofList (reversed.reverse ++ text), c.forward count)

variable {start} {double : Bool} {text : List Char} {count : Nat} {ch : Char}

/-- Between quotes of a kind the character stands for itself. -/
def IsLiteral (double : Bool) (ch : Char) : Prop :=
  ch ≠ (if double then '"' else '\'') ∧ (double = true → ch ≠ '\\')

theorem readsOn_close (h : c.rest = (if double then '"' else '\'') :: back)
    (hback : double = false → back.head? ≠ some '\'') : ReadsOn double start c [] 1 := by
  intro bound reversed hbound
  rcases Nat.exists_eq_add_of_lt hbound with ⟨bound, rfl⟩
  cases double with
  | true => simp [quotedFrom, h, Cursor.forward]
  | false => simp [quotedFrom, h, hback rfl, Cursor.forward]

theorem readsOn_visible (hliteral : IsLiteral double ch) (hvisible : IsVisible ch)
    (h : c.rest = ch :: back) (hon : ReadsOn double start (c.forward 1) text count) :
    ReadsOn double start c (ch :: text) (1 + count) := by
  intro bound reversed hbound
  rcases Nat.exists_eq_add_of_lt hbound with ⟨bound, rfl⟩
  have hnext := hon (c.rest.length + bound) (ch :: reversed)
    (by rw [Cursor.rest_forward, h]; simp; omega)
  have hplain : (double && ch == '\\') = false := by
    cases double with
    | true => simpa using hliteral.2 rfl
    | false => rfl
  rw [quotedFrom]
  simp only [h, beq_iff_eq, hliteral.1, if_false, hplain, hvisible.1, hvisible.2, Bool.or_self,
    Bool.false_eq_true]
  rw [← h]
  change quotedFrom double start (c.rest.length + bound) (ch :: reversed) (c.forward 1) = _
  rw [hnext, Cursor.forward_forward, List.reverse_cons, List.append_assoc, List.singleton_append]

theorem readsOn_quote (h : c.rest = '\'' :: '\'' :: back)
    (hon : ReadsOn false start (c.forward 2) text count) :
    ReadsOn false start c ('\'' :: text) (2 + count) := by
  intro bound reversed hbound
  rcases Nat.exists_eq_add_of_lt hbound with ⟨bound, rfl⟩
  have hnext := hon (c.rest.length + bound) ('\'' :: reversed)
    (by rw [Cursor.rest_forward, h]; simp; omega)
  rw [quotedFrom]
  simp only [h]
  rw [← h]
  simpa [Cursor.forward_forward] using hnext

theorem readsOn_spaces {front chars : List Char} (h : c.rest = front ++ back)
    (hhead : front.head? = some ch) (hspace : ¬IsVisible ch) (hliteral : IsLiteral double ch)
    (hspaces : quotedSpaces start c = .ok (chars.reverse, c.forward front.length))
    (hon : ReadsOn double start (c.forward front.length) text count) :
    ReadsOn double start c (chars ++ text) (front.length + count) := by
  intro bound reversed hbound
  rcases List.head?_eq_some_iff.mp hhead with ⟨more, rfl⟩
  rcases Nat.exists_eq_add_of_lt hbound with ⟨bound, rfl⟩
  have hnext := hon (c.rest.length + bound) (chars.reverse ++ reversed)
    (by rw [Cursor.rest_forward, h]; simp; omega)
  have hplain : (double && ch == '\\') = false := by
    cases double with
    | true => simpa using hliteral.2 rfl
    | false => rfl
  have hgap : (Cursor.isGap ch || Style.isBreak ch) = true := by
    by_contra hnot
    exact hspace (by simpa [IsVisible] using hnot)
  rw [quotedFrom]
  simp only [h, List.cons_append, beq_iff_eq, hliteral.1, if_false, hplain, hgap,
    Bool.false_eq_true, if_true, hspaces, bind, Except.bind]
  rw [← List.cons_append, ← h, hnext, Cursor.forward_forward, List.reverse_append,
    List.reverse_reverse, List.append_assoc]

theorem readsOn_escape (chars : List Char) {more : List Char} (h : c.rest = '\\' :: more ++ back)
    (hescape : quotedEscape start (c.forward 1) = .ok (chars.reverse, c.forward (more.length + 1)))
    (hon : ReadsOn true start (c.forward (more.length + 1)) text count) :
    ReadsOn true start c (chars ++ text) (more.length + 1 + count) := by
  intro bound reversed hbound
  rcases Nat.exists_eq_add_of_lt hbound with ⟨bound, rfl⟩
  have hnext := hon (c.rest.length + bound) (chars.reverse ++ reversed)
    (by rw [Cursor.rest_forward, h]; simp; omega)
  rw [quotedFrom]
  simp only [h, List.cons_append]
  rw [← List.cons_append, ← h]
  change (quotedEscape start (c.forward 1)).bind (fun result =>
    quotedFrom true start (c.rest.length + bound) (result.1 ++ reversed) result.2) = _
  rw [hescape]
  change quotedFrom true start (c.rest.length + bound) (chars.reverse ++ reversed) _ = _
  rw [hnext, Cursor.forward_forward, List.reverse_append, List.reverse_reverse, List.append_assoc]

/-!
## Between single quotes
-/

/-- The characters of a text without escapes. -/
def IsClear (stretches : List Stretch) : Prop :=
  ∀ s ∈ stretches, ∀ ch ∈ s.text, Style.isClear ch = true

theorem isVisible_of_isClear (hclear : Style.isClear ch = true)
    (hletter : CharClass.of ch = .letter) :
    IsVisible ch := by
  rcases CharClass.of_eq_letter_iff.mp hletter with ⟨hblank, hbreak⟩
  have htab : ch ≠ '\t' := by
    rintro rfl
    revert hclear
    decide
  exact ⟨by simp [Cursor.isGap, hblank, htab], hbreak⟩

section Laid

variable {folds : Bool} {escape : Char → List Char} {stretches rest : List Stretch}
  {stretch : Stretch} {cs written : List Char}

theorem startsVisible_of_word (hescape : ∀ ch, (escape ch).head? = some ch)
    (h : Laid level folds escape (.word cs :: rest) written)
    (hproper : (Stretch.word cs).IsProper) (hclear : ∀ ch ∈ cs, Style.isClear ch = true)
    (back : List Char) : StartsVisible (written ++ back) := by
  cases h with
  | word cs h =>
      rcases List.exists_cons_of_ne_nil hproper.1 with ⟨ch, more, htext⟩
      obtain rfl : cs = ch :: more := htext
      rcases List.head?_eq_some_iff.mp (hescape ch) with ⟨tail, hch⟩
      refine ⟨ch, _, by rw [List.flatMap_cons, hch]; rfl, ?_⟩
      exact isVisible_of_isClear (hclear ch List.mem_cons_self) (hproper.2 ch List.mem_cons_self)

theorem startsVisible_behind (hescape : ∀ ch, (escape ch).head? = some ch)
    (h : Laid level folds escape rest written) (hproper : ∀ s ∈ rest, s.IsProper)
    (hclear : IsClear rest) (hturns : Stretch.TakeTurns (stretch :: rest))
    (hgap : stretch.charClass ≠ .letter) (hback : StartsVisible back) :
    StartsVisible (written ++ back) := by
  rw [Stretch.TakeTurns, List.isChain_cons] at hturns
  cases rest with
  | nil =>
      cases h
      exact hback
  | cons next rest =>
      have hword : next.charClass = .letter := by
        have hiff := hturns.1 next rfl
        by_contra hnot
        exact hgap (hiff.mpr hnot)
      cases next with
      | blanks count => cases hword
      | breaks cs => cases hword
      | word cs =>
          exact startsVisible_of_word hescape h (hproper _ List.mem_cons_self)
            (hclear _ List.mem_cons_self) back

theorem readsOn_word (hletters : ∀ ch ∈ cs, IsVisible ch)
    (h : c.rest = cs.flatMap Pen.doubleQuote ++ back)
    (hon : ReadsOn false start (c.forward (cs.flatMap Pen.doubleQuote).length) text count) :
    ReadsOn false start c (cs ++ text) ((cs.flatMap Pen.doubleQuote).length + count) := by
  induction cs generalizing c with
  | nil =>
      rw [List.flatMap_nil, List.length_nil, Nat.zero_add]
      exact hon
  | cons ch cs ih =>
      rcases List.forall_mem_cons.mp hletters with ⟨hch, hcs⟩
      rw [List.flatMap_cons, List.append_assoc] at h
      rw [List.flatMap_cons, List.length_append] at hon ⊢
      rw [← Cursor.forward_forward] at hon
      have hrest := ih hcs (Cursor.rest_forward_append h) hon
      by_cases hquote : ch = '\''
      · subst hquote
        rw [Nat.add_assoc]
        exact readsOn_quote h hrest
      · have hone : Pen.doubleQuote ch = [ch] := by simp [Pen.doubleQuote, hquote]
        rw [hone] at h hrest ⊢
        rw [Nat.add_assoc]
        exact readsOn_visible ⟨hquote, fun hfalse => nomatch hfalse⟩ hch h hrest

/-- Between single quotes stretches are read one by one. -/
theorem readsOn_laid (hlevel : 0 < level) (h : Laid level folds Pen.doubleQuote stretches written)
    (hproper : ∀ s ∈ stretches, s.IsProper) (hclear : IsClear stretches)
    (hturns : Stretch.TakeTurns stretches) (hback : back.head? ≠ some '\'')
    (hrest : c.rest = written ++ '\'' :: back) :
    ReadsOn false start c (stretches.flatMap Stretch.reread) (written.length + 1) := by
  have hquote : ∀ ch, (Pen.doubleQuote ch).head? = some ch := by
    intro ch
    by_cases h : ch = '\''
    · simp [Pen.doubleQuote, h]
    · simp [Pen.doubleQuote, h]
  have hclose : StartsVisible ('\'' :: back) := ⟨'\'', back, rfl, by decide, by decide⟩
  have hliteral : ∀ ch, Style.isBreak ch = true → IsLiteral false ch := by
    intro ch hbreak
    refine ⟨fun heq => ?_, fun hfalse => nomatch hfalse⟩
    rw [heq] at hbreak
    cases hbreak
  -- Blanks and line ends are read up to the next visible character, so their cases first look at
  -- how the rest begins.
  induction h generalizing c with
  | nil => exact readsOn_close hrest fun _ => hback
  | @blanks rest text count h ih =>
      rcases List.forall_mem_cons.mp hproper with ⟨hstretch, hproper⟩
      rcases List.forall_mem_cons.mp hclear with ⟨-, hclear⟩
      have hbehind := startsVisible_behind hquote h hproper hclear hturns
        (by simp [Stretch.charClass]) hclose
      rw [List.append_assoc] at hrest
      have hon := ih hproper hclear hturns.tail (Cursor.rest_forward_append hrest)
      have hspaces := quotedSpaces_blanks start hbehind hrest
      have hhead : (List.replicate count ' ').head? = some ' ' := by
        rw [List.head?_replicate, if_neg fun hzero => hstretch.1 (by rw [hzero]; rfl)]
      rw [List.length_append, Nat.add_assoc]
      exact readsOn_spaces hrest hhead (by decide) ⟨by decide, fun hfalse => nomatch hfalse⟩
        (by simpa [Stretch.reread, Stretch.text] using hspaces) hon
  | @fold rest text hfolds hne hline h ih =>
      rcases List.forall_mem_cons.mp hproper with ⟨-, hproper⟩
      rcases List.forall_mem_cons.mp hclear with ⟨-, hclear⟩
      have hbehind := startsVisible_behind hquote h hproper hclear hturns
        (by simp [Stretch.charClass]) hclose
      rw [List.append_assoc] at hrest
      have hon := ih hproper hclear hturns.tail (Cursor.rest_forward_append hrest)
      have hspaces := quotedSpaces_newLine start hlevel hbehind hrest
      rw [List.length_append, Nat.add_assoc]
      exact readsOn_spaces hrest rfl (by decide) (hliteral '\n' rfl) hspaces hon
  | @breaks rest text cs hline h ih =>
      rcases List.forall_mem_cons.mp hproper with ⟨hstretch, hproper⟩
      rcases List.forall_mem_cons.mp hclear with ⟨-, hclear⟩
      have hbreaks : ∀ ch ∈ cs, Style.isBreak ch = true := fun ch hch =>
        CharClass.of_eq_lineEnd_iff.mp (hstretch.2 ch hch)
      have hbehind := startsVisible_behind hquote h hproper hclear hturns
        (by simp [Stretch.charClass]) hclose
      rw [List.append_assoc] at hrest
      have hon := ih hproper hclear hturns.tail (Cursor.rest_forward_append hrest)
      have hspaces := quotedSpaces_lineEnds start hlevel hstretch.1 hbreaks hbehind hrest
      rcases List.exists_cons_of_ne_nil hstretch.1 with ⟨first, more, htext⟩
      obtain rfl : cs = first :: more := htext
      have hfirst := hbreaks first List.mem_cons_self
      rw [List.length_append, Nat.add_assoc]
      exact readsOn_spaces hrest (head_lineEnds level first more)
        (fun hvisible => by rw [hvisible.2] at hfirst; cases hfirst) (hliteral first hfirst)
        hspaces hon
  | @word rest text cs h ih =>
      rcases List.forall_mem_cons.mp hproper with ⟨hstretch, hproper⟩
      rcases List.forall_mem_cons.mp hclear with ⟨hcs, hclear⟩
      rw [List.append_assoc] at hrest
      have hon := ih hproper hclear hturns.tail (Cursor.rest_forward_append hrest)
      rw [List.length_append, Nat.add_assoc]
      exact readsOn_word (fun ch hch => isVisible_of_isClear (hcs ch hch) (hstretch.2 ch hch)) hrest hon

end Laid
/-!
## Between double quotes
-/

variable (start) in
theorem quotedEscape_code {letter : Char} {width : Nat}
    (hletter : letterEscapes.lookup letter = none)
    (hcode : codeEscapes.lookup letter = some width) (hwidth : 0 < width)
    (hlt : ch.toNat < 16 ^ width) (h : c.rest = letter :: (Pen.hex width ch.toNat ++ back)) :
    quotedEscape start c = .ok ([ch], c.forward (1 + width)) := by
  have hread := codeEscape_hex start hwidth hlt (Cursor.rest_forward_one h)
  rw [quotedEscape, Cursor.peek_of_rest h, hletter, hcode]
  change (codeEscape start width (c.forward 1)).bind (fun result => .ok ([result.1], result.2)) = _
  rw [hread, Cursor.forward_forward]
  rfl

variable (start) in
theorem quotedEscape_escape (h : c.rest = Pen.escape ch ++ back) :
    ∃ more, Pen.escape ch = '\\' :: more ∧
      quotedEscape start (c.forward 1) = .ok ([ch], c.forward (more.length + 1)) := by
  rw [Pen.escape] at h ⊢
  cases hletter : Pen.letterEscapes.lookup ch with
  | some letter =>
      rw [hletter] at h
      refine ⟨[letter], rfl, ?_⟩
      rw [quotedEscape, Cursor.peek_of_rest (Cursor.rest_forward_one h), lookup_letterEscapes hletter]
      rfl
  | none =>
      rw [hletter] at h
      dsimp only at h ⊢
      have hvalid : ch.toNat < 0x110000 := by
        have hchar : ch.toNat < 0xD800 ∨ 0xDFFF < ch.toNat ∧ ch.toNat < 0x110000 := ch.valid
        omega
      -- The three widths of an escape differ in their letter alone.
      have hcode : ∀ {letter : Char} {width : Nat}, letterEscapes.lookup letter = none →
          codeEscapes.lookup letter = some width → 0 < width → ch.toNat < 16 ^ width →
          c.rest = '\\' :: letter :: Pen.hex width ch.toNat ++ back →
          quotedEscape start (c.forward 1) =
            .ok ([ch], c.forward ((letter :: Pen.hex width ch.toNat).length + 1)) := by
        intro letter width hnone hsome hwidth hlt hrest
        rw [quotedEscape_code start hnone hsome hwidth hlt (Cursor.rest_forward_one hrest),
          Cursor.forward_forward, List.length_cons, (hex_spec hwidth hlt).1, Nat.add_comm 1 width,
          Nat.add_comm 1]
      split
      · rename_i hbyte
        rw [if_pos hbyte] at h
        exact ⟨_, rfl, hcode rfl rfl (by decide) (by omega) h⟩
      · rename_i hbyte
        rw [if_neg hbyte] at h
        split
        · rename_i hshort
          rw [if_pos hshort] at h
          exact ⟨_, rfl, hcode rfl rfl (by decide) (by omega) h⟩
        · rename_i hshort
          rw [if_neg hshort] at h
          exact ⟨_, rfl, hcode rfl rfl (by decide) (by omega) h⟩

theorem isVisible_of_isBare (hbare : Pen.isBare ch = true) (hblank : ch ≠ ' ') :
    IsVisible ch ∧ IsLiteral true ch := by
  simp only [Pen.isBare, Bool.and_eq_true, Bool.not_eq_true', Bool.or_eq_false_iff, beq_eq_false_iff_ne,
    Bool.or_eq_true, decide_eq_true_eq] at hbare
  rcases hbare with ⟨⟨⟨⟨⟨⟨hquote, hslash⟩, hnext⟩, hline⟩, hparagraph⟩, -⟩, hrange⟩
  have hcontrol : ∀ other : Char, other.toNat < 0x20 → ch ≠ other := by
    rintro other hlt rfl
    omega
  refine ⟨⟨?_, ?_⟩, hquote, fun _ => hslash⟩
  · simp [Cursor.isGap, hblank, hcontrol '\t' (by decide)]
  · simp [Style.isBreak, hnext, hline, hparagraph, hcontrol '\n' (by decide)]

section Escaped

variable {folds : Bool} {cs written : List Char}

theorem startsVisible_of_escaped (h : Escaped level folds cs written) (hblank : cs.head? ≠ some ' ')
    (hback : StartsVisible back) : StartsVisible (written ++ back) := by
  cases h with
  | nil => exact hback
  | @bare c cs text hbare h =>
      have hne : c ≠ ' ' := by simpa using hblank
      exact ⟨c, _, rfl, (isVisible_of_isBare hbare hne).1⟩
  | @escape c cs text hbare h =>
      rcases quotedEscape_escape ⟨0, 0⟩ (c := ⟨Pen.escape c, 0, 0, 0⟩)
        (List.append_nil _).symm with ⟨more, hescape, -⟩
      exact ⟨'\\', _, by rw [hescape]; rfl, by decide⟩
  | fold hfolds hcs h => exact ⟨'\\', _, rfl, by decide⟩
  | foldBlank hfolds h => exact ⟨'\\', _, rfl, by decide⟩

/-- Blanks wait to be read until something visible comes. -/
theorem readsOn_blanks {pending : Nat} (hback : StartsVisible back)
    (h : c.rest = List.replicate pending ' ' ++ back)
    (hon : ReadsOn true start (c.forward pending) text count) :
    ReadsOn true start c (List.replicate pending ' ' ++ text) (pending + count) := by
  have hspaces := quotedSpaces_blanks start hback h
  cases pending with
  | zero =>
      rw [Nat.zero_add]
      exact hon
  | succ pending =>
      have hliteral : IsLiteral true ' ' := ⟨by decide, fun _ => by decide⟩
      have hread : quotedSpaces start c = .ok ((List.replicate (pending + 1) ' ').reverse,
          c.forward (List.replicate (pending + 1) ' ').length) := by
        rw [List.reverse_replicate, List.length_replicate]
        exact hspaces
      have hon' := readsOn_spaces h rfl (by decide : ¬IsVisible ' ') hliteral hread
        (by rw [List.length_replicate]; exact hon)
      rwa [List.length_replicate] at hon'

variable (start) in
/-- A line that was broken off goes on behind its indentation. -/
theorem quotedEscape_newLine (hlevel : 0 < level) (hback : StartsVisible back)
    (h : c.rest = '\\' :: newLine level ++ back) :
    quotedEscape start (c.forward 1) = .ok ([], c.forward ((newLine level).length + 1)) := by
  have hline : (c.forward 1).rest = newLine level ++ back := Cursor.rest_forward_one h
  have hrest : ((c.forward 1).forward 1).rest = [] ++ (List.replicate level ' ' ++ back) :=
    Cursor.rest_forward_one hline
  have hbreak := Cursor.lineBreak?_of_isBreak hline rfl
  have hread := quotedBreaks_eq start hlevel (List.forall_mem_nil fun ch => Style.isBreak ch = true)
    hback ((c.forward 1).forward 1).rest.length
    (by rw [hrest]; simp only [List.length_append, List.length_replicate, List.length_nil]; omega)
    [] hrest
  rw [quotedEscape, Cursor.peek_of_rest hline, hbreak]
  refine Eq.trans hread ?_
  rw [Cursor.forward_forward, Cursor.forward_forward, newLine, List.length_cons,
    List.length_replicate, List.length_nil, Nat.zero_add, ← Nat.add_assoc, Nat.add_comm (1 + 1)]
  rfl

/-- Between double quotes every text is read back. -/
theorem readsOn_escaped (hlevel : 0 < level) (h : Escaped level folds cs written) {pending : Nat}
    (hrest : c.rest = List.replicate pending ' ' ++ (written ++ '"' :: back)) :
    ReadsOn true start c (List.replicate pending ' ' ++ cs) (pending + (written.length + 1)) := by
  have hclose : StartsVisible ('"' :: back) := ⟨'"', back, rfl, by decide⟩
  -- Blanks are read together with those behind them, so some may be pending at every step.
  induction h generalizing c pending with
  | nil =>
      have hnext := Cursor.rest_forward_blanks hrest
      exact readsOn_blanks hclose hrest (readsOn_close hnext fun hfalse => nomatch hfalse)
  | @bare ch cs text hbare h ih =>
      by_cases hblank : ch = ' '
      · subst hblank
        have hmore : ∀ more : List Char, List.replicate pending ' ' ++ ' ' :: more =
            List.replicate (pending + 1) ' ' ++ more := by
          intro more
          rw [List.replicate_succ', List.append_assoc, List.singleton_append]
        rw [List.cons_append, hmore] at hrest
        rw [hmore, List.length_cons, Nat.add_right_comm text.length 1 1, ← Nat.add_assoc,
          Nat.add_right_comm]
        exact ih hrest
      · rcases isVisible_of_isBare hbare hblank with ⟨hvisible, hliteral⟩
        have hnext := Cursor.rest_forward_blanks hrest
        have hon := @ih ((c.forward pending).forward 1) 0 (Cursor.rest_forward_one hnext)
        have hread := readsOn_visible hliteral hvisible hnext hon
        rw [List.length_cons]
        refine readsOn_blanks ⟨ch, _, rfl, hvisible⟩ hrest ?_
        rwa [Nat.zero_add, Nat.add_comm 1] at hread
  | @escape ch cs text hbare h ih =>
      have hnext := Cursor.rest_forward_blanks hrest
      rw [List.append_assoc] at hnext
      rcases quotedEscape_escape start hnext with ⟨more, hescape, hread⟩
      rw [hescape] at hnext hrest ⊢
      have hon := @ih ((c.forward pending).forward ('\\' :: more).length) 0
        (Cursor.rest_forward_append hnext)
      rw [Nat.zero_add] at hon
      rw [List.length_append, Nat.add_assoc ('\\' :: more).length]
      exact readsOn_blanks ⟨'\\', _, rfl, by decide⟩ hrest (readsOn_escape [ch] hnext hread hon)
  | @fold cs text hfolds hblank h ih =>
      have hnext := Cursor.rest_forward_blanks hrest
      rw [List.append_assoc] at hnext
      have hread := quotedEscape_newLine start hlevel
        (startsVisible_of_escaped h hblank hclose) hnext
      have hon := @ih ((c.forward pending).forward ('\\' :: newLine level).length) 0
        (Cursor.rest_forward_append hnext)
      rw [Nat.zero_add] at hon
      rw [List.length_append, Nat.add_assoc ('\\' :: newLine level).length]
      exact readsOn_blanks ⟨'\\', _, rfl, by decide⟩ hrest (readsOn_escape [] hnext hread hon)
  | @foldBlank cs text hfolds h ih =>
      have hnext := Cursor.rest_forward_blanks hrest
      rw [List.append_assoc] at hnext
      have hread := quotedEscape_newLine start hlevel ⟨'\\', _, rfl, by decide⟩ hnext
      have hblank : ((c.forward pending).forward ('\\' :: newLine level).length).rest =
          '\\' :: [' '] ++ (text ++ '"' :: back) := Cursor.rest_forward_append hnext
      have hon := @ih (((c.forward pending).forward ('\\' :: newLine level).length).forward
        ['\\', ' '].length) 0 (Cursor.rest_forward_append hblank)
      rw [Nat.zero_add] at hon
      have hescape : quotedEscape start
          (((c.forward pending).forward ('\\' :: newLine level).length).forward 1) =
            .ok ([' '].reverse, ((c.forward pending).forward ('\\' :: newLine level).length).forward
              ([' '].length + 1)) := by
        rw [quotedEscape, Cursor.peek_of_rest (Cursor.rest_forward_one hblank)]
        rfl
      rw [List.length_append, Nat.add_assoc ('\\' :: newLine level).length]
      refine readsOn_blanks ⟨'\\', _, rfl, by decide⟩ hrest (readsOn_escape [] hnext hread ?_)
      have hcount : ('\\' :: ' ' :: text).length + 1 = [' '].length + 1 + (text.length + 1) := by
        simp only [List.length_cons, List.length_nil]
        omega
      rw [hcount]
      exact readsOn_escape [' '] hblank hescape hon

end Escaped
/-!
## Quoted scalars
-/

theorem quoted_of_readsOn (hon : ReadsOn double c.mark (c.forward 1) text count) :
    quoted double c = .ok (String.ofList text, c.forward (count + 1)) := by
  have hread := hon (c.rest.length + 1) [] (by rw [Cursor.rest_forward, List.length_drop]; omega)
  rw [quoted]
  refine Eq.trans hread ?_
  rw [Cursor.forward_forward, Nat.add_comm 1]
  rfl

theorem stretches_of_allowsSingle {cs : List Char} (h : Style.allowsSingle cs = true) :
    IsClear (stretches cs) ∧ Stretch.TakeTurns (stretches cs) := by
  simp only [Style.allowsSingle, Bool.and_eq_true, Bool.not_eq_true', List.all_eq_true] at h
  exact ⟨fun s hs ch hch => h.1.1 ch (Stretch.mem_of_mem_text hs hch),
    Stretch.takeTurns_stretches h.1.2 h.2⟩

variable {folds : Bool} {cs body : List Char}

theorem quoted_single (hlevel : 0 < level) (hsingle : Style.allowsSingle cs = true)
    (h : Laid level folds Pen.doubleQuote (stretches cs) body) (hback : back.head? ≠ some '\'')
    (hrest : c.rest = '\'' :: body ++ ['\''] ++ back) :
    quoted false c =
      .ok (String.ofList (reread cs), c.forward ('\'' :: body ++ ['\'']).length) := by
  rcases stretches_of_allowsSingle hsingle with ⟨hclear, hturns⟩
  rw [reread, if_pos hsingle]
  rw [List.append_assoc] at hrest
  have hon : ReadsOn false c.mark (c.forward 1) ((stretches cs).flatMap Stretch.reread)
      (body.length + 1) :=
    readsOn_laid hlevel h (fun _ hmem => Stretch.isProper_of_mem hmem) hclear hturns hback
      (Cursor.rest_forward_one hrest)
  exact quoted_of_readsOn (by simpa using hon)

theorem quoted_double (hlevel : 0 < level) (h : Escaped level folds cs body)
    (hrest : c.rest = '"' :: body ++ ['"'] ++ back) :
    quoted true c = .ok (String.ofList cs, c.forward ('"' :: body ++ ['"']).length) := by
  rw [List.append_assoc] at hrest
  have hbody : (c.forward 1).rest = List.replicate 0 ' ' ++ (body ++ '"' :: back) :=
    Cursor.rest_forward_one hrest
  have hon : ReadsOn true c.mark (c.forward 1) cs (0 + (body.length + 1)) :=
    readsOn_escaped hlevel h hbody
  exact quoted_of_readsOn (by simpa using hon)

end Scalar
end Yaml
end Roster
