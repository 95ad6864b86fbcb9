import Roster.Proofs.Yaml.Styles
import Roster.Yaml.Lexer

/-!
# Taking tokens

The lexer goes through a written document token by token.  Each lemma follows it over one token,
from where it waits for the token to what stands behind it: the rest of the line, or the next line
with the columns of the collections that go on there.
-/

namespace Roster
namespace Yaml

/-- A token starts with a character that is neither skipped nor the sign of a comment. -/
structure IsTokenStart (ch : Char) : Prop where
  visible : Scalar.IsVisible ch
  notComment : ch ≠ '#'
  notMark : ch ≠ '\uFEFF'

theorem IsTokenStart.ne_space {ch : Char} (h : IsTokenStart ch) : Cursor.isSpace ch = false := by
  have hgap := h.visible.1
  simp only [Cursor.isGap, Bool.or_eq_false_iff] at hgap
  exact hgap.1

/-- What stands behind a scalar: the colon of its entry, or the end of the line and a further line
that is not indented more than the collection. -/
inductive EndsScalar (indent : Int) : List Char → Prop where
  | colon (back : List Char) (hparted : Style.atSeparator back = true) :
      EndsScalar indent (':' :: back)
  | line (column : Nat) (back : List Char) (hindent : (column : Int) ≤ indent)
      (hback : ∀ ch ∈ back.head?, IsTokenStart ch) : EndsScalar indent (newLine column ++ back)

/-!
## Where a scalar without quotes starts
-/

section PlainStart

open Scalar

variable {level : Nat} {folds : Bool} {indent : Int} {parts : List Stretch} {word cs text tail : List Char}
  {ch mark : Char} {rest : List Char}

theorem exists_first_word (h : WordLine parts)
    (hlaid : Laid level folds (fun ch => [ch]) parts text) (htail : EndsScalar indent tail) :
    ∃ word more next behind, parts = .word word :: more ∧ IsPlainWord word ∧
      text ++ tail = word ++ next :: behind ∧ next ≠ '-' ∧ next ≠ '.' ∧
      Style.atSeparator (more.flatMap Stretch.text) = true := by
  cases h with
  | @last word hword =>
      cases hlaid with
      | word _ hnil =>
          cases hnil
          rw [List.flatMap_singleton', List.append_nil]
          cases htail with
          | colon back _ => exact ⟨word, [], _, _, rfl, hword, rfl, by decide, by decide, rfl⟩
          | line column back _ _ =>
              exact ⟨word, [], _, _, rfl, hword, rfl, by decide, by decide, rfl⟩
  | @more word count rest hword hcount h =>
      rcases Nat.exists_eq_add_of_lt hcount with ⟨n, rfl⟩
      rw [Nat.zero_add] at *
      cases hlaid with
      | word _ hgap =>
          rw [List.flatMap_singleton']
          cases hgap with
          | @blanks _ text _ hlaid =>
              exact ⟨word, _, ' ', List.replicate n ' ' ++ (text ++ tail), rfl, hword,
                by simp [List.replicate_succ], by decide, by decide, rfl⟩
          | @fold _ text _ _ _ hlaid =>
              exact ⟨word, _, '\n', List.replicate level ' ' ++ (text ++ tail), rfl, hword,
                by simp [newLine], by decide, by decide, rfl⟩

/-- What stands where a scalar without quotes starts. -/
structure IsPlainStart (ch : Char) (rest : List Char) : Prop where
  start : IsTokenStart ch
  leading : ch ∉ Style.leadingIndicators
  separator : Style.isSeparator ch = false
  indicator : ch = '?' ∨ ch = ':' ∨ ch = '-' → Style.atSeparator rest = false
  document : ∀ c : Cursor, c.rest = ch :: rest → c.atTriple '-' = false ∧ c.atTriple '.' = false

theorem Cursor.rest_of_atTriple {c : Cursor} (h : c.atTriple mark = true) :
    ∃ behind, c.rest = mark :: mark :: mark :: behind := by
  rw [atTriple] at h
  split at h
  · rename_i a b d behind hrest
    simp only [Bool.and_eq_true, beq_iff_eq] at h
    rcases h with ⟨⟨⟨rfl, rfl⟩, rfl⟩, -⟩
    exact ⟨behind, hrest⟩
  · cases h

/-- A word that does not start with three marks starts no line between documents. -/
theorem Cursor.atTriple_of_word {c : Cursor} {next : Char} {behind : List Char}
    (h : c.rest = word ++ next :: behind) (hnext : next ≠ mark)
    (hword : [mark, mark, mark].isPrefixOf word = false) : c.atTriple mark = false := by
  by_contra htriple
  rcases rest_of_atTriple (by simpa using htriple) with ⟨more, hmarks⟩
  rw [h] at hmarks
  match word, hword with
  | [], _ => exact hnext (List.cons.inj hmarks).1
  | [a], _ => exact hnext (List.cons.inj (List.cons.inj hmarks).2).1
  | [a, b], _ => exact hnext (List.cons.inj (List.cons.inj (List.cons.inj hmarks).2).2).1
  | a :: b :: d :: word, hword =>
      simp only [List.cons_append, List.cons.injEq] at hmarks
      rcases hmarks with ⟨rfl, rfl, rfl, -⟩
      simp [List.isPrefixOf] at hword

/-- A text that may stand without quotes does not start with anything that could be taken for
markup. -/
theorem exists_isPlainStart (hne : cs ≠ []) (hplain : Style.allowsPlain cs = true)
    (hlaid : Laid level folds (fun ch => [ch]) (stretches cs) text)
    (htail : EndsScalar indent tail) :
    ∃ ch rest, text ++ tail = ch :: rest ∧ IsPlainStart ch rest := by
  rcases exists_first_word (wordLine_of_allowsPlain hne hplain).1 hlaid htail with
    ⟨word, more, next, behind, hparts, hword, htext, hhyphen, hpoint, hseparator⟩
  have hcs : cs = word ++ more.flatMap Stretch.text := by
    rw [← Stretch.flatMap_text_stretches cs, hparts]
    rfl
  rcases List.exists_cons_of_ne_nil hword.ne_nil with ⟨ch, letters, rfl⟩
  have hmarkup := (Style.allowsPlain_iff.mp hplain).2.2.2.1
  simp only [Style.looksLikeMarkup, Bool.or_eq_false_iff] at hmarkup
  rcases hmarkup with ⟨⟨⟨hhyphens, hpoints⟩, hindicator⟩, -⟩
  rw [hcs, List.cons_append, Style.startsWithIndicator, Bool.or_eq_false_iff] at hindicator
  have hclear := hword.clear ch List.mem_cons_self
  have hletter := hword.letters ch List.mem_cons_self
  have hseparators : ∀ letter ∈ letters, Style.isSeparator letter = false := fun letter hmem =>
    Style.isSeparator_eq_false (hword.clear letter (List.mem_cons_of_mem _ hmem))
      (hword.letters letter (List.mem_cons_of_mem _ hmem))
  -- What cannot start the whole text cannot start its first word either.
  have hmarks : ∀ {mark : Char}, [mark, mark, mark].isPrefixOf cs = false →
      [mark, mark, mark].isPrefixOf (ch :: letters) = false := by
    intro mark hmark
    rw [← Bool.not_eq_true, List.isPrefixOf_iff_prefix] at hmark ⊢
    exact fun hword => hmark (hcs ▸ hword.trans (List.prefix_append _ _))
  refine ⟨ch, letters ++ next :: behind, htext, ⟨isVisible_of_isClear hclear hletter, ?_,
    (inLine_of_isClear hclear hletter).2⟩, by simpa using hindicator.1,
    Style.isSeparator_eq_false hclear hletter, fun hch => ?_, fun c hc => ?_⟩
  · simpa using hword.first
  · have hcombined : Style.atSeparator (letters ++ more.flatMap Stretch.text) = false := by
      simpa [or_assoc, hch] using hindicator.2
    cases letters with
    | nil =>
        rw [List.nil_append, hseparator] at hcombined
        cases hcombined
    | cons letter letters => exact hseparators letter List.mem_cons_self
  · exact ⟨Cursor.atTriple_of_word hc hhyphen (hmarks hhyphens),
      Cursor.atTriple_of_word hc hpoint (hmarks hpoints)⟩

end PlainStart

namespace Lexer

variable {l : Lexer} {ch : Char} {rest : List Char}

/-!
## Which token starts at a character
-/

theorem atTriple_of_rest (hrest : l.cursor.rest = ch :: rest) (h : ch ≠ '-' ∧ ch ≠ '.') :
    l.cursor.atTriple '-' = false ∧ l.cursor.atTriple '.' = false := by
  constructor
  · exact Cursor.atTriple_eq_false (by simp [hrest, h.1])
  · exact Cursor.atTriple_eq_false (by simp [hrest, h.2])

theorem takeToken_single (hdepth : l.depth = 0) (hrest : l.cursor.rest = '\'' :: rest) :
    l.takeToken '\'' rest = l.takeWith (Scalar.quoted false) (.scalar false) := by
  rcases atTriple_of_rest hrest (by decide) with ⟨hhyphen, hpoint⟩
  simp [takeToken, hdepth, hhyphen, hpoint]

theorem takeToken_double (hdepth : l.depth = 0) (hrest : l.cursor.rest = '"' :: rest) :
    l.takeToken '"' rest = l.takeWith (Scalar.quoted true) (.scalar false) := by
  rcases atTriple_of_rest hrest (by decide) with ⟨hhyphen, hpoint⟩
  simp [takeToken, hdepth, hhyphen, hpoint]

/-- An indicator is followed by what parts it from the next character, so it is no mark of a line
between documents. -/
theorem atTriple_of_parted (hrest : l.cursor.rest = ch :: rest)
    (hparted : Style.atSeparator rest = true) (hpoint : ch ≠ '.') :
    l.cursor.atTriple '-' = false ∧ l.cursor.atTriple '.' = false := by
  refine ⟨?_, Cursor.atTriple_eq_false (by simp [hrest, hpoint])⟩
  rw [Cursor.atTriple, hrest]
  cases rest with
  | nil => rfl
  | cons b behind =>
      have hne : b ≠ '-' := by
        rintro rfl
        cases hparted
      cases behind with
      | nil => rfl
      | cons d behind => simp [hne]

theorem takeToken_hyphen (hrest : l.cursor.rest = '-' :: rest)
    (hparted : Style.atSeparator rest = true) : l.takeToken '-' rest = l.takeBlockEntry := by
  rcases atTriple_of_parted hrest hparted (by decide) with ⟨hhyphen, hpoint⟩
  simp [takeToken, hparted, hhyphen, hpoint]

theorem takeToken_question (hrest : l.cursor.rest = '?' :: rest)
    (hparted : Style.atSeparator rest = true) : l.takeToken '?' rest = l.takeKey := by
  rcases atTriple_of_parted hrest hparted (by decide) with ⟨hhyphen, hpoint⟩
  simp [takeToken, hparted, hhyphen, hpoint]

theorem takeToken_colon (hrest : l.cursor.rest = ':' :: rest)
    (hparted : Style.atSeparator rest = true) : l.takeToken ':' rest = l.takeValue := by
  rcases atTriple_of_parted hrest hparted (by decide) with ⟨hhyphen, hpoint⟩
  simp [takeToken, hparted, hhyphen, hpoint]

theorem startsPlain_of_isPlainStart (hrest : l.cursor.rest = ch :: rest)
    (h : IsPlainStart ch rest) :
    Scalar.startsPlain false l.cursor = true := by
  have hknown : ("-?:,[]{}#&*!|>'\"%@\x60".toList.all fun other =>
      ['?', ':', '-'].contains other || Style.leadingIndicators.contains other) = true := by
    decide
  rw [Scalar.startsPlain, hrest]
  by_cases hindicator : ch = '?' ∨ ch = ':' ∨ ch = '-'
  · have hbehind := h.indicator hindicator
    rcases hindicator with rfl | rfl | rfl <;> simp [hbehind]
  · have hnone : "-?:,[]{}#&*!|>'\"%@\x60".toList.contains ch = false := by
      rw [← Bool.not_eq_true, List.contains_iff_mem]
      intro hmem
      have hsign := List.all_eq_true.mp hknown ch hmem
      rw [Bool.or_eq_true, List.contains_iff_mem, List.contains_iff_mem] at hsign
      rcases hsign with hsign | hleading
      · exact hindicator (by simpa using hsign)
      · exact h.leading hleading
    simp only [h.separator, hnone, Bool.or_self, Bool.not_false, Bool.true_or]

theorem takeToken_plain (hdepth : l.depth = 0) (hrest : l.cursor.rest = ch :: rest)
    (h : IsPlainStart ch rest) : l.takeToken ch rest = l.takePlain := by
  have hne : ∀ other ∈ Style.leadingIndicators, (ch == other) = false := fun other hmem =>
    beq_eq_false_iff_ne.mpr fun heq => h.leading (heq ▸ hmem)
  have hparted : ∀ sign, sign = '?' ∨ sign = ':' ∨ sign = '-' →
      (ch == sign && Style.atSeparator rest) = false := by
    intro sign hsign
    by_cases heq : ch = sign
    · rw [h.indicator (heq ▸ hsign), Bool.and_false]
    · simp [heq]
  rcases h.document l.cursor hrest with ⟨hhyphen, hpoint⟩
  simp [takeToken, hdepth, hhyphen, hpoint, startsPlain_of_isPlainStart hrest h,
    hparted '?', hparted ':', hparted '-', hne '%' (by decide), hne '[' (by decide),
    hne '\x7b' (by decide), hne ']' (by decide), hne '\x7d' (by decide), hne ',' (by decide),
    hne '*' (by decide), hne '&' (by decide), hne '!' (by decide), hne '|' (by decide),
    hne '>' (by decide), hne '\'' (by decide), hne '"' (by decide)]

/-!
## Scalars as tokens
-/

/-- The lexer that takes what follows for a possible key, where one can start. -/
def considering (l : Lexer) : Lexer :=
  if l.keyAllowed then
    { l with candidates :=
        [(0, ⟨l.count, l.indent == (l.cursor.column : Int), l.cursor.index, l.cursor.mark⟩)] }
  else l

theorem addCandidate_eq (hdepth : l.depth = 0) (hnone : l.candidates = []) :
    l.addCandidate = .ok l.considering := by
  have hdrop : l.dropCandidate = .ok l := by
    rw [dropCandidate, candidate?, hnone]
    rfl
  rw [addCandidate, considering]
  split
  · simp [hdrop, hdepth, hnone, bind, Except.bind]
  · rfl

theorem cursor_considering (l : Lexer) : l.considering.cursor = l.cursor := by
  rw [considering]
  split <;> rfl

theorem depth_considering (l : Lexer) : l.considering.depth = l.depth := by
  rw [considering]
  split <;> rfl

theorem indent_considering (l : Lexer) : l.considering.indent = l.indent := by
  rw [considering]
  split <;> rfl

theorem takeWith_eq {read : Cursor → Except Fault (String × Cursor)} (kind : String → TokenKind)
    {text : String} {cursor : Cursor} (hdepth : l.depth = 0) (hnone : l.candidates = [])
    (hread : read l.cursor = .ok (text, cursor)) :
    l.takeWith read kind = .ok { l.considering.push ⟨kind text, l.cursor.mark, cursor.mark⟩ with
      cursor, keyAllowed := false } := by
  rw [takeWith, addCandidate_eq hdepth hnone]
  simp only [bind, Except.bind, cursor_considering, hread]

/-- Where the lexer stands behind a scalar: right behind it, or on the next line. -/
def IsBehind (l : Lexer) (text tail : List Char) (cursor : Cursor) (keyAllowed : Bool) : Prop :=
  (cursor = l.cursor.forward text.length ∧ keyAllowed = false) ∨
    ∃ column back, tail = newLine column ++ back ∧ (∀ ch ∈ back.head?, IsTokenStart ch) ∧
      cursor = l.cursor.forward (text.length + (1 + column)) ∧ keyAllowed = true

variable {level : Nat} {isKey folds : Bool} {cs text tail : List Char}

theorem newLine_append_inj {m n : Nat} {front back : List Char}
    (h : newLine m ++ front = newLine n ++ back) (hfront : ∀ ch ∈ front.head?, IsTokenStart ch)
    (hback : ∀ ch ∈ back.head?, IsTokenStart ch) : m = n ∧ front = back := by
  have hblanks : List.replicate m ' ' ++ front = List.replicate n ' ' ++ back :=
    (List.cons_inj_right _).mp h
  let c : Cursor := { rest := List.replicate m ' ' ++ front }
  have hm : c.takeWhile Cursor.isSpace = (List.replicate m ' ', c.forward m) :=
    Cursor.takeWhile_blanks rfl rfl fun ch hch => (hfront ch hch).ne_space
  have hn : c.takeWhile Cursor.isSpace = (List.replicate n ' ', c.forward n) :=
    Cursor.takeWhile_blanks rfl hblanks fun ch hch => (hback ch hch).ne_space
  have hsame : m = n := by
    simpa using congrArg (List.length ∘ Prod.fst) (hm.symm.trans hn)
  rw [hsame] at hblanks
  exact ⟨hsame, List.append_cancel_left hblanks⟩

theorem place_newLine {c : Cursor} {column : Nat} {front back : List Char}
    (h : c.rest = front ++ (newLine column ++ back)) :
    c.line < (c.forward (front.length + (1 + column))).line ∧
      (c.forward (front.length + (1 + column))).column = column ∧
      (c.forward (front.length + (1 + column))).rest = back := by
  rcases Cursor.place_forward_of_isBreak h rfl with ⟨hline, hcolumn⟩
  have hrest : (c.forward (front.length + 1)).rest = List.replicate column ' ' ++ back := by
    rw [← Cursor.forward_forward]
    exact Cursor.rest_forward_one (Cursor.rest_forward_append h)
  have hplace := Cursor.place_forward_of_inLine hrest fun ch hch => by
    rw [List.eq_of_mem_replicate hch]
    decide
  rw [List.length_replicate, Cursor.forward_forward, Nat.add_assoc, hcolumn, Nat.zero_add] at hplace
  refine ⟨hplace.1 ▸ hline, hplace.2, ?_⟩
  rw [← Nat.add_assoc, ← Cursor.forward_forward]
  exact Cursor.rest_forward_blanks hrest

theorem takePlain_eq (hlevel : 0 < level) (hne : cs ≠ []) (hplain : Style.allowsPlain cs = true)
    (h : Laid level folds (fun ch => [ch]) (stretches cs) text) (hdepth : l.depth = 0)
    (hnone : l.candidates = []) (hindent : l.indent < level) (hcolumn : l.indent ≤ l.cursor.column)
    (htail : EndsScalar l.indent tail) (hrest : l.cursor.rest = text ++ tail) :
    ∃ token cursor keyAllowed, token.kind = .scalar true (String.ofList cs) ∧
      l.takePlain = .ok { l.considering.push token with cursor, keyAllowed } ∧
      l.IsBehind text tail cursor keyAllowed := by
  have hbehind := Cursor.rest_forward_append hrest
  have hread := fun hends hstop => Scalar.plain_of_laid hlevel (by omega : l.indent + 1 ≤ level) hne
    hplain h hends hrest (by omega) hstop
  have htake : ∀ {plain : Scalar.Plain} {cursor : Cursor},
      Scalar.plain false (l.indent + 1) l.cursor = (plain, cursor) →
      l.takePlain = .ok { l.considering.push ⟨.scalar true plain.text, l.cursor.mark, plain.stop⟩ with
        cursor, keyAllowed := plain.brokeLine } := by
    intro plain cursor hplain
    rw [takePlain, addCandidate_eq hdepth hnone]
    simp only [bind, Except.bind, cursor_considering, depth_considering, indent_considering, hdepth,
      bne_self_eq_false, hplain]
  -- A scalar ends in front of the colon of its entry, or where the next line is not indented
  -- further.
  cases htail with
  | colon back hparted =>
      have hgap : Scalar.plainGap (l.cursor.forward text.length) =
          ⟨List.replicate 0 ' ', (l.cursor.forward text.length).forward 0, false⟩ :=
        Scalar.plainGap_blanks ⟨':', _, rfl, by decide⟩ hbehind
      rw [hgap] at hread
      have hends : Scalar.EndsWord (':' :: back) := by
        have hkey : Scalar.endsKey false back = true := by
          cases back with
          | nil => rfl
          | cons ch back => exact Bool.or_eq_true_iff.mpr (Or.inl hparted)
        simp [Scalar.EndsWord, Scalar.plainWord, hkey]
      exact ⟨_, _, _, rfl, htake (hread hends (Or.inl rfl)), Or.inl ⟨rfl, rfl⟩⟩
  | line column back hopen hback =>
      rcases Scalar.plainGap_lineEnd (fun ch hch => ⟨(hback ch hch).ne_space,
        (hback ch hch).visible.2⟩) hbehind with ⟨hcursor, hbroke⟩
      rw [Cursor.forward_forward] at hcursor
      have hplain := hread (Scalar.endsWord_of_isSeparator rfl)
        (Or.inr (Or.inr (by rw [hcursor, (place_newLine hrest).2.1]; omega)))
      exact ⟨_, _, _, rfl, htake hplain, Or.inr ⟨column, back, rfl, hback, hcursor,
        hbroke⟩⟩

/-- A scalar becomes a token for its text as it is read back. -/
theorem takeToken_written (hlevel : 0 < level) (h : Written level isKey cs text)
    (hline : isKey = true → Style.isMultiline cs = false) (hdepth : l.depth = 0)
    (hnone : l.candidates = []) (hindent : l.indent < level) (hcolumn : l.indent ≤ l.cursor.column)
    (htail : EndsScalar l.indent tail) (hrest : l.cursor.rest = text ++ tail) :
    ∃ ch rest token cursor keyAllowed, l.cursor.rest = ch :: rest ∧ IsTokenStart ch ∧
      token.kind = .scalar (Style.ofText isKey cs == .plain) (String.ofList (reread cs)) ∧
      l.takeToken ch rest = .ok { l.considering.push token with cursor, keyAllowed } ∧
      l.IsBehind text tail cursor keyAllowed := by
  have hquote : tail.head? ≠ some '\'' := by
    cases htail with
    | colon back _ => simp
    | line column back _ _ => simp [newLine]
  cases h with
  | plain hstyle h =>
      rcases Style.of_eq_plain hstyle with ⟨-, hplain, hne⟩
      rcases exists_isPlainStart hne hplain h htail with ⟨ch, rest, htext, hstart⟩
      rw [htext] at hrest
      rcases takePlain_eq hlevel hne hplain h hdepth hnone hindent hcolumn htail (htext ▸ hrest) with
        ⟨token, cursor, keyAllowed, hkind, htake, hbehind⟩
      rw [← takeToken_plain hdepth hrest hstart] at htake
      rw [reread_of_inLine (Style.allowsPlain_iff.mp hplain).2.2.1, hstyle]
      exact ⟨ch, rest, token, cursor, keyAllowed, hrest, hstart.start, hkind, htake, hbehind⟩
  | single hstyle h =>
      have hread := Scalar.quoted_single hlevel (Style.allowsSingle_of_eq_single hstyle) h hquote hrest
      have htake := takeWith_eq (.scalar false) hdepth hnone hread
      rw [← takeToken_single hdepth hrest] at htake
      rw [hstyle]
      exact ⟨'\'', _, _, _, _, hrest, ⟨by decide, by decide, by decide⟩, rfl, htake,
        Or.inl ⟨rfl, rfl⟩⟩
  | double hstyle h =>
      have hread := Scalar.quoted_double hlevel h hrest
      have htake := takeWith_eq (.scalar false) hdepth hnone hread
      rw [← takeToken_double hdepth hrest] at htake
      rw [reread_of_eq_double hstyle hline, hstyle]
      exact ⟨'"', _, _, _, _, hrest, ⟨by decide, by decide, by decide⟩, rfl, htake,
        Or.inl ⟨rfl, rfl⟩⟩

/-!
## Where the lexer stands between tokens
-/

/-- The lexer has found tokens of some kinds; the columns are those of the collections around it, the
innermost first. -/
structure Found (l : Lexer) (kinds : List TokenKind) (columns : List Nat) : Prop where
  tokens : l.reversed.map Token.kind = kinds.reverse
  count : l.count = kinds.length
  depth : l.depth = 0
  finished : l.finished = false
  columns : l.indent :: l.outer = columns.map Int.ofNat ++ [-1]

/-- The lexer stands in a column in front of a text, and nothing can still become a key. -/
structure Stands (l : Lexer) (kinds : List TokenKind) (columns : List Nat) (column : Nat)
    (keyAllowed : Bool) (rest : List Char) : Prop where
  found : l.Found kinds columns
  rest : l.cursor.rest = rest
  column : l.cursor.column = column
  keyAllowed : l.keyAllowed = keyAllowed
  candidates : l.candidates = []

/-- The next token is in a column; the collections further to the right are closed in front of it. -/
structure Awaits (l : Lexer) (kinds : List TokenKind) (columns : List Nat) (column : Nat)
    (keyAllowed : Bool) (rest : List Char) : Prop where
  unfinished : l.finished = false
  settled : ∃ s inner opened, l.skipToToken.dropStale = .ok s ∧
    s.Stands opened (inner ++ columns) column keyAllowed rest ∧ (∀ m ∈ inner, column < m) ∧
    kinds = opened ++ List.replicate inner.length .blockEnd

variable {kinds : List TokenKind} {columns inner : List Nat} {m column : Nat} {keyAllowed : Bool}
  {front back : List Char}

namespace Found

/-- Where the lexer stands, and what can become a key, do not matter to what it has found. -/
theorem elsewhere (h : l.Found kinds columns) (cursor : Cursor) (keyAllowed : Bool)
    (candidates : List (Nat × KeyCandidate)) (released : Nat) :
    Found { l with cursor, keyAllowed, candidates, released } kinds columns :=
  ⟨h.tokens, h.count, h.depth, h.finished, h.columns⟩

theorem push (h : l.Found kinds columns) (token : Token) :
    (l.push token).Found (kinds ++ [token.kind]) columns where
  tokens := by simp [Lexer.push, h.tokens]
  count := by simp [Lexer.push, h.count]
  depth := h.depth
  finished := h.finished
  columns := h.columns

theorem considering (h : l.Found kinds columns) : l.considering.Found kinds columns := by
  rw [Lexer.considering]
  split
  · exact h.elsewhere _ _ _ _
  · exact h

theorem indent_cons (h : l.Found kinds (m :: columns)) :
    l.indent = m ∧ l.outer = columns.map Int.ofNat ++ [-1] := by
  simpa using h.columns

theorem indent_nil (h : l.Found kinds []) : l.indent = -1 ∧ l.outer = [] := by
  simpa using h.columns

theorem indent_le (h : l.Found kinds columns) (hcolumns : ∀ m ∈ columns.head?, m ≤ column) :
    l.indent ≤ column := by
  cases columns with
  | nil =>
      rw [h.indent_nil.1]
      omega
  | cons m columns =>
      rw [h.indent_cons.1]
      exact Int.ofNat_le.mpr (hcolumns m rfl)

theorem indent_eq_iff (h : l.Found kinds columns) : l.indent = m ↔ columns.head? = some m := by
  cases columns with
  | nil =>
      rw [h.indent_nil.1]
      simp
  | cons n columns =>
      rw [h.indent_cons.1]
      simp

theorem close (h : l.Found kinds (m :: columns)) :
    Found { l.pushHere .blockEnd with indent := l.outer.headD (-1), outer := l.outer.drop 1 }
      (kinds ++ [.blockEnd]) columns := by
  have hpushed := h.push ⟨.blockEnd, l.cursor.mark, l.cursor.mark⟩
  refine ⟨hpushed.tokens, hpushed.count, hpushed.depth, hpushed.finished, ?_⟩
  rw [h.indent_cons.2]
  cases columns with
  | nil => rfl
  | cons n columns => rfl

end Found

/-!
## Between tokens
-/

/-- Blanks and perhaps a comment, up to the end of a line. -/
inductive IsSkipped : List Char → Prop where
  | blanks (count : Nat) : IsSkipped (List.replicate count ' ')
  | comment (count : Nat) (cs : List Char) (hline : ∀ ch ∈ cs, Style.isBreak ch = false) :
      IsSkipped (List.replicate count ' ' ++ '#' :: cs)

theorem skipComment_of_isSkipped {c : Cursor} (h : IsSkipped front)
    (hrest : c.rest = front ++ '\n' :: back) : c.skipComment = c.forward front.length := by
  cases h with
  | blanks count =>
      rw [List.length_replicate]
      refine Cursor.skipComment_of_skipWhile (Cursor.skipWhile_blanks rfl hrest ?_) ?_
      · exact fun ch hch => Option.some.inj hch ▸ rfl
      · rw [Cursor.rest_forward_blanks hrest]
        exact fun ch hch => Option.some.inj hch ▸ by decide
  | comment count cs hline =>
      rw [List.append_assoc] at hrest
      have hskip : c.skipWhile Cursor.isSpace = c.forward count :=
        Cursor.skipWhile_blanks rfl hrest fun ch hch => Option.some.inj hch ▸ rfl
      have hsign := Cursor.rest_forward_blanks hrest
      have htaken : (c.forward count).takeWhile Cursor.isInLine =
          ('#' :: cs, (c.forward count).forward ('#' :: cs).length) := Cursor.takeWhile_append hsign
        (List.forall_mem_cons.mpr ⟨rfl, fun ch hch => by simp [Cursor.isInLine, hline ch hch]⟩)
        fun ch hch => Option.some.inj hch ▸ rfl
      simp only [Cursor.skipComment, hskip, Cursor.peek_of_rest hsign, BEq.rfl, if_true]
      rw [Cursor.skipWhile, htaken, Cursor.forward_forward, List.length_append, List.length_replicate]

theorem skipToToken_go_blanks {count : Nat} (hrest : l.cursor.rest = List.replicate count ' ' ++ back)
    (h : ∀ ch ∈ back.head?, IsTokenStart ch) {bound : Nat} (hbound : l.cursor.rest.length ≤ bound) :
    skipToToken.go bound l = { l with cursor := l.cursor.forward count } := by
  cases bound with
  | zero =>
      rw [hrest, List.length_append, List.length_replicate] at hbound
      rw [Nat.eq_zero_of_add_eq_zero_right (Nat.eq_zero_of_le_zero hbound)]
      rfl
  | succ bound =>
      have hbehind := Cursor.rest_forward_blanks hrest
      have hskip : l.cursor.skipWhile Cursor.isSpace = l.cursor.forward count :=
        Cursor.skipWhile_blanks rfl hrest fun ch hch => (h ch hch).ne_space
      have hcomment := Cursor.skipComment_of_skipWhile hskip fun ch hch =>
        (h ch (hbehind ▸ hch)).notComment
      have hnone := Cursor.lineBreak?_eq_none (c := l.cursor.forward count) fun ch hch =>
        (h ch (hbehind ▸ hch)).visible.2
      simp only [skipToToken.go, hcomment, hnone]

theorem skipToToken_go_line (hdepth : l.depth = 0) (h : IsSkipped front)
    (hrest : l.cursor.rest = front ++ '\n' :: back) (bound : Nat) :
    skipToToken.go (bound + 1) l =
      skipToToken.go bound
        { l with cursor := l.cursor.forward (front.length + 1), keyAllowed := true } := by
  have hbreak := Cursor.lineBreak?_of_isBreak (Cursor.rest_forward_append hrest) rfl
  simp only [skipToToken.go, skipComment_of_isSkipped h hrest, hbreak, hdepth, BEq.rfl, Bool.or_true,
    Cursor.forward_forward]

theorem skipToToken_eq_go (h : ∀ ch ∈ l.cursor.rest.head?, ch ≠ '\uFEFF') :
    l.skipToToken = skipToToken.go l.cursor.rest.length l := by
  have hpeek := Cursor.peek_ne h (by decide)
  simp [skipToToken, hpeek]

theorem skipToToken_self (h : ∀ ch ∈ l.cursor.rest.head?, IsTokenStart ch) : l.skipToToken = l := by
  rw [skipToToken_eq_go fun ch hch => (h ch hch).notMark]
  have hrest : l.cursor.rest = List.replicate 0 ' ' ++ l.cursor.rest := rfl
  exact skipToToken_go_blanks hrest h (Nat.le_refl _)

theorem skipToToken_blank (hrest : l.cursor.rest = ' ' :: back)
    (h : ∀ ch ∈ back.head?, IsTokenStart ch) :
    l.skipToToken = { l with cursor := l.cursor.forward 1 } := by
  rw [skipToToken_eq_go (by simp [hrest])]
  have hcut : l.cursor.rest = List.replicate 1 ' ' ++ back := hrest
  exact skipToToken_go_blanks hcut h (Nat.le_refl _)

theorem IsSkipped.ne_mark (h : IsSkipped front) :
    ∀ ch ∈ (front ++ '\n' :: back).head?, ch ≠ '\uFEFF' := by
  intro ch hch
  cases h with
  | blanks count | comment count cs hline =>
      cases count with
      | zero => exact Option.some.inj hch ▸ by decide
      | succ count => exact Option.some.inj hch ▸ by decide

/-- Behind what is skipped at the end of a line, and behind the indentation of the next one, a token
starts. -/
theorem skipToToken_newLine (hdepth : l.depth = 0) (hfront : IsSkipped front)
    (hrest : l.cursor.rest = front ++ (newLine column ++ back))
    (h : ∀ ch ∈ back.head?, IsTokenStart ch) :
    l.skipToToken =
      { l with cursor := l.cursor.forward (front.length + (1 + column)), keyAllowed := true } := by
  have hcut : l.cursor.rest = front ++ '\n' :: (List.replicate column ' ' ++ back) := hrest
  have hnext : (l.cursor.forward (front.length + 1)).rest = List.replicate column ' ' ++ back := by
    rw [← Cursor.forward_forward]
    exact Cursor.rest_forward_one (Cursor.rest_forward_append hcut)
  have hlength : l.cursor.rest.length =
      (front.length + (List.replicate column ' ' ++ back).length) + 1 := by
    rw [hcut, List.length_append, List.length_cons]
    rfl
  rw [skipToToken_eq_go (hcut ▸ hfront.ne_mark), hlength, skipToToken_go_line hdepth hfront hcut,
    skipToToken_go_blanks hnext h (by rw [hnext]; omega), Cursor.forward_forward, Nat.add_assoc]

theorem dropStale_eq
    (h : ∀ entry ∈ l.candidates, l.isStale entry.2 = true → entry.2.required = false) :
    l.dropStale =
      .ok { l with candidates := l.candidates.filter fun entry => !l.isStale entry.2 } := by
  have hnone : l.candidates.find? (fun entry => l.isStale entry.2 && entry.2.required) = none := by
    rw [List.find?_eq_none]
    intro entry hmem hboth
    rw [Bool.and_eq_true] at hboth
    rw [h entry hmem hboth.1] at hboth
    cases hboth.2
  rw [dropStale]
  simp only [hnone]

theorem dropStale_of_fresh (h : ∀ entry ∈ l.candidates, l.isStale entry.2 = false) :
    l.dropStale = .ok l := by
  have hall : l.candidates.filter (fun entry => !l.isStale entry.2) = l.candidates :=
    List.filter_eq_self.mpr fun entry hmem => by simp [h entry hmem]
  rw [dropStale_eq fun entry hmem hstale => ?_, hall]
  rw [h entry hmem] at hstale
  cases hstale

theorem dropStale_of_nil (h : l.candidates = []) : l.dropStale = .ok l :=
  dropStale_of_fresh (by simp [h])

theorem isStale_of_line {key : KeyCandidate} (h : key.mark.line ≠ l.cursor.line) :
    l.isStale key = true := by
  simp [isStale, h]

theorem mem_candidates_considering (hnone : l.candidates = []) :
    ∀ entry ∈ l.considering.candidates, entry.2.mark = l.cursor.mark ∧
      entry.2.index = l.cursor.index ∧ entry.2.required = (l.indent == (l.cursor.column : Int)) := by
  rw [considering]
  split
  · simp
  · simp [hnone]

theorem unwind_go_self {column : Int} (h : l.indent ≤ column) (bound : Nat) :
    unwind.go column bound l = l := by
  cases bound with
  | zero => rfl
  | succ bound => exact if_neg (Int.not_lt.mpr h)

theorem unwind_self {column : Int} (h : l.indent ≤ column) : l.unwind column = l := by
  rw [unwind]
  split
  · exact unwind_go_self h _
  · rfl

/-- The collections further to the right than a column are closed. -/
theorem Stands.unwind_go {bound : Nat}
    (h : l.Stands kinds (inner ++ columns) column keyAllowed rest) (hinner : ∀ m ∈ inner, column < m)
    (hcolumns : ∀ m ∈ columns.head?, m ≤ column) (hbound : inner.length ≤ bound) :
    (unwind.go column bound l).Stands (kinds ++ List.replicate inner.length .blockEnd) columns column
      keyAllowed rest := by
  induction inner generalizing l kinds bound with
  | nil =>
      rw [unwind_go_self (h.found.indent_le hcolumns), List.length_nil, List.replicate_zero,
        List.append_nil]
      exact h
  | cons m inner ih =>
      rcases List.forall_mem_cons.mp hinner with ⟨hm, hinner⟩
      cases bound with
      | zero => cases hbound
      | succ bound =>
          have hindent : ((column : Nat) : Int) < l.indent := by
            rw [h.found.indent_cons.1]
            exact Int.ofNat_lt.mpr hm
          have hclosed : Stands { l.pushHere .blockEnd with
              indent := l.outer.headD (-1), outer := l.outer.drop 1 } (kinds ++ [.blockEnd])
              (inner ++ columns) column keyAllowed rest :=
            ⟨h.found.close, h.rest, h.column, h.keyAllowed, h.candidates⟩
          rw [unwind.go, if_pos hindent, List.length_cons, List.replicate_succ, List.append_cons]
          exact ih hclosed hinner (Nat.le_of_succ_le_succ hbound)

/-- In front of its token the lexer has closed what ends there. -/
theorem Awaits.stands (h : l.Awaits kinds columns column keyAllowed rest)
    (hcolumns : ∀ m ∈ columns.head?, m ≤ column) :
    ∃ s, l.skipToToken.dropStale = .ok s ∧
      (s.unwind s.cursor.column).Stands kinds columns column keyAllowed rest := by
  rcases h.settled with ⟨s, inner, opened, hskip, hstands, hinner, rfl⟩
  refine ⟨s, hskip, ?_⟩
  have hlength : s.outer.length = inner.length + columns.length := by
    simpa [← Nat.add_assoc] using congrArg List.length hstands.found.columns
  rw [unwind, if_pos (by rw [hstands.found.depth]; rfl), hstands.column]
  exact hstands.unwind_go hinner hcolumns (by omega)

theorem Awaits.close (h : l.Awaits kinds (m :: columns) column keyAllowed rest) (hm : column < m) :
    l.Awaits (kinds ++ [.blockEnd]) columns column keyAllowed rest := by
  rcases h.settled with ⟨s, inner, opened, hskip, hstands, hinner, rfl⟩
  refine ⟨h.unfinished, s, inner ++ [m], opened, hskip, ?_, ?_, ?_⟩
  · rwa [List.append_assoc, List.singleton_append]
  · simpa [or_imp, forall_and] using ⟨hinner, hm⟩
  · rw [List.length_append, List.length_singleton, List.replicate_succ', List.append_assoc]

theorem awaits_of_settled {s : Lexer} (hunfinished : l.finished = false)
    (hskip : l.skipToToken.dropStale = .ok s)
    (h : s.Stands kinds columns column keyAllowed rest) :
    l.Awaits kinds columns column keyAllowed rest :=
  ⟨hunfinished, s, [], kinds, hskip, h, nofun, by simp⟩

theorem Stands.awaits_blank (h : l.Stands kinds columns column keyAllowed (' ' :: back))
    (hback : ∀ ch ∈ back.head?, IsTokenStart ch) :
    l.Awaits kinds columns (column + 1) keyAllowed back := by
  have hskip : l.skipToToken.dropStale = .ok { l with cursor := l.cursor.forward 1 } := by
    rw [skipToToken_blank h.rest hback]
    exact dropStale_of_nil h.candidates
  have hplace := Cursor.place_forward_one h.rest (by decide)
  refine awaits_of_settled h.found.finished hskip ⟨h.found.elsewhere _ _ _ _,
    Cursor.rest_forward_one h.rest, ?_, h.keyAllowed, h.candidates⟩
  rw [← h.column]
  exact hplace.2

theorem Stands.awaits_newLine {other : Nat} (hfront : IsSkipped front)
    (h : l.Stands kinds columns other keyAllowed (front ++ (newLine column ++ back)))
    (hback : ∀ ch ∈ back.head?, IsTokenStart ch) : l.Awaits kinds columns column true back := by
  have hskip : l.skipToToken.dropStale = .ok { l with
      cursor := l.cursor.forward (front.length + (1 + column)), keyAllowed := true } := by
    rw [skipToToken_newLine h.found.depth hfront h.rest hback]
    exact dropStale_of_nil h.candidates
  have hplace := place_newLine h.rest
  exact awaits_of_settled h.found.finished hskip
    ⟨h.found.elsewhere _ _ _ _, hplace.2.2, hplace.2.1, rfl, h.candidates⟩

/-- Behind a scalar and the end of its line the next line is reached, and nothing before it can become
a key. -/
theorem awaits_of_isBehind {s t : Lexer} {text : List Char}
    (hrest : s.cursor.rest = text ++ (newLine column ++ back))
    (hback : ∀ ch ∈ back.head?, IsTokenStart ch)
    (hbehind : s.IsBehind text (newLine column ++ back) t.cursor t.keyAllowed)
    (hfound : t.Found kinds columns)
    (hcandidates : ∀ entry ∈ t.candidates, entry.2.mark = s.cursor.mark ∧ entry.2.required = false) :
    t.Awaits kinds columns column true back := by
  have hplace := place_newLine hrest
  let next : Lexer := { t with
    cursor := s.cursor.forward (text.length + (1 + column)), keyAllowed := true }
  have hskip : t.skipToToken = next := by
    rcases hbehind with ⟨hcursor, -⟩ | ⟨other, behind, htail, hother, hcursor, hallowed⟩
    · have hend : t.cursor.rest = [] ++ (newLine column ++ back) :=
        hcursor ▸ Cursor.rest_forward_append hrest
      rw [skipToToken_newLine hfound.depth (.blanks 0) hend hback, hcursor, Cursor.forward_forward,
        List.replicate_zero, List.length_nil, Nat.zero_add]
    · rcases newLine_append_inj htail hback hother with ⟨rfl, rfl⟩
      rw [skipToToken_self (by rw [hcursor, hplace.2.2]; exact hback)]
      simp only [next, ← hcursor, ← hallowed]
  have hstale : ∀ entry ∈ next.candidates, next.isStale entry.2 = true := by
    intro entry hentry
    refine isStale_of_line ?_
    rw [(hcandidates entry hentry).1]
    exact Nat.ne_of_lt hplace.1
  have hdrop := dropStale_eq (l := next) fun entry hentry _ => (hcandidates entry hentry).2
  have hnone : next.candidates.filter (fun entry => !next.isStale entry.2) = [] :=
    List.filter_eq_nil_iff.mpr fun entry hentry => by simp [hstale entry hentry]
  have hsettled := (congrArg Lexer.dropStale hskip).trans hdrop
  exact awaits_of_settled hfound.finished hsettled
    ⟨hfound.elsewhere _ _ _ _, hplace.2.2, hplace.2.1, rfl, hnone⟩

/-!
## From token to token
-/

theorem advance_eq {s t t' : Lexer} (hskip : l.skipToToken.dropStale = .ok s)
    (hrest : (s.unwind s.cursor.column).cursor.rest = ch :: rest)
    (htake : (s.unwind s.cursor.column).takeToken ch rest = .ok t) (hdrop : t.dropStale = .ok t') :
    l.advance = .ok t'.release := by
  rw [advance, hskip]
  simp only [bind, Except.bind, hrest, htake, hdrop]
  rfl

/-- From one lexer to another some tokens are taken. -/
def Goes (l l' : Lexer) (steps : Nat) : Prop := ∀ bound, run (bound + steps) l = run bound l'

theorem Goes.trans {l' l'' : Lexer} {m n : Nat} (h : l.Goes l' m) (h' : l'.Goes l'' n) :
    l.Goes l'' (n + m) := by
  intro bound
  rw [← Nat.add_assoc, h, h']

theorem goes_of_advance {l' : Lexer} (hunfinished : l.finished = false) (h : l.advance = .ok l') :
    l.Goes l' 1 := by
  intro bound
  rw [run, if_neg (by simp [hunfinished]), h]

end Lexer
end Yaml
end Roster
