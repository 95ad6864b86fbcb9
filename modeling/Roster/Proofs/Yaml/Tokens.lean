import Roster.Proofs.Value.Kinds
import Roster.Proofs.Yaml.Blocks
import Roster.Proofs.Yaml.Lexer

/-!
# The tokens of written values

A collection gives the tokens of what it holds with an indicator in front of each, between a token
that opens it and one that closes it; a list in the column of its key has neither.  What a node
gives does not depend on where its scalars are folded.
-/

namespace Roster
namespace Yaml

/-!
## Kinds of tokens
-/

/-- The kind of the token of a text: as it is read back, and without quotes or not. -/
def textKind (isKey : Bool) (s : String) : TokenKind :=
  .scalar (Style.ofText isKey s.toList == .plain) (rereadText s)

/-- The kind of the token of a scalar. -/
def scalarKind : Value → TokenKind
  | .str s => textKind false s
  | v => .scalar true (String.ofList ((word? v).getD []))

mutual

/-- The kinds of the tokens of a value; a list in the column of its key is not opened. -/
def nodeKinds (indentless : Bool) : Value → List TokenKind
  | .list [] => [.flowSequenceStart, .flowSequenceEnd]
  | .map [] => [.flowMappingStart, .flowMappingEnd]
  | .list items =>
      if indentless then itemKinds items else .blockSequenceStart :: (itemKinds items ++ [.blockEnd])
  | .map entries => .blockMappingStart :: (entryKinds entries ++ [.blockEnd])
  | v => [scalarKind v]

/-- The kinds of the tokens of items. -/
def itemKinds : List Value → List TokenKind
  | [] => []
  | v :: rest => .blockEntry :: (nodeKinds false v ++ itemKinds rest)

/-- The kinds of the tokens of entries. -/
def entryKinds : List (String × Value) → List TokenKind
  | [] => []
  | (k, v) :: rest =>
      .key :: textKind (Pen.isSimpleKey k.toList) k :: .value ::
        (nodeKinds (Pen.isSimpleKey k.toList) v ++ entryKinds rest)

end

theorem nodeKinds_of_isScalar {v : Value} (h : v.isScalar = true) (indentless : Bool) :
    nodeKinds indentless v = [scalarKind v] := by
  cases v with
  | list items => cases h
  | map entries => cases h
  | null | bool b | int i | float d | str s => simp [nodeKinds]

theorem nodeKinds_list {items : List Value} (hne : items ≠ []) (indentless : Bool) :
    nodeKinds indentless (.list items) =
      if indentless then itemKinds items
      else .blockSequenceStart :: (itemKinds items ++ [.blockEnd]) := by
  rcases List.exists_cons_of_ne_nil hne with ⟨v, rest, rfl⟩
  simp [nodeKinds]

theorem nodeKinds_map {entries : List (String × Value)} (hne : entries ≠ []) (indentless : Bool) :
    nodeKinds indentless (.map entries) =
      .blockMappingStart :: (entryKinds entries ++ [.blockEnd]) := by
  rcases List.exists_cons_of_ne_nil hne with ⟨entry, rest, rfl⟩
  simp [nodeKinds]

theorem isScalar_of_scalarWritten {v : Value} {level : Nat} {text : List Char}
    (h : ScalarWritten level v text) : v.isScalar = true := by
  cases h with
  | text h => rfl
  | @word v cs h hv =>
      cases v with
      | list items => cases h
      | map entries => cases h
      | null | bool b | int i | float d | str s => rfl

/-!
## How what is written starts
-/

section Starts

variable {level column : Nat} {isKey noted below : Bool} {cs text tail back : List Char} {v : Value}
  {indent : Int}

theorem isTokenStart_of_written (h : Written level isKey cs text) (htail : EndsScalar indent tail) :
    ∀ ch ∈ (text ++ tail).head?, IsTokenStart ch := by
  cases h with
  | plain hstyle h =>
      rcases Style.of_eq_plain hstyle with ⟨-, hplain, hne⟩
      rcases exists_isPlainStart hne hplain h htail with ⟨ch, rest, htext, hstart⟩
      rw [htext]
      exact fun other hother => Option.some.inj hother ▸ hstart.start
  | single hstyle h =>
      exact fun other hother => Option.some.inj hother ▸ ⟨by decide, by decide, by decide⟩
  | double hstyle h =>
      exact fun other hother => Option.some.inj hother ▸ ⟨by decide, by decide, by decide⟩

theorem ne_nil_of_written (h : Written level isKey cs text) : text ≠ [] := by
  rintro rfl
  have hends : EndsScalar 0 (newLine 0 ++ []) := .line 0 [] (Int.le_refl 0) nofun
  have hstart := isTokenStart_of_written h hends '\n' rfl
  cases hstart.visible.2

/-- What a value is written as begins behind its indicator with a blank or a line end. -/
theorem atSeparator_of_nodeWritten (h : NodeWritten noted column below v text) (back : List Char) :
    Style.atSeparator (text ++ back) = true := by
  cases h with
  | scalar h => rfl
  | noItems => rfl
  | noEntries => rfl
  | items h => rfl
  | itemsBelow hremark h | entriesBelow hremark h =>
      cases hremark with
      | none => rfl
      | some hnoted hcs => rfl
  | entries h => rfl

theorem isTokenStart_of_keyWritten {k : String} (h : KeyWritten column below k text)
    (hparted : Style.atSeparator back = true) : ∀ ch ∈ (text ++ back).head?, IsTokenStart ch := by
  cases h with
  | simple hsimple h =>
      have hends : EndsScalar 0 (':' :: back) := .colon back hparted
      rw [List.append_assoc]
      exact isTokenStart_of_written h hends
  | long hsimple h =>
      exact fun ch hch => Option.some.inj hch ▸ ⟨by decide, by decide, by decide⟩

theorem isTokenStart_of_entriesWritten {entries : List (String × Value)}
    (h : EntriesWritten noted column entries text) :
    ∀ ch ∈ (text ++ back).head?, IsTokenStart ch := by
  cases h with
  | last hkey hvalue =>
      rw [List.append_assoc]
      exact isTokenStart_of_keyWritten hkey (atSeparator_of_nodeWritten hvalue _)
  | cons hkey hvalue hrest =>
      rw [List.append_assoc, List.append_assoc]
      exact isTokenStart_of_keyWritten hkey (atSeparator_of_nodeWritten hvalue _)

theorem ne_nil_of_itemsWritten {items : List Value} (h : ItemsWritten noted column items text) :
    items ≠ [] := by
  cases h with
  | last h | cons h hrest => exact List.cons_ne_nil _ _

theorem ne_nil_of_entriesWritten {entries : List (String × Value)}
    (h : EntriesWritten noted column entries text) : entries ≠ [] := by
  cases h with
  | last hkey h | cons hkey h hrest => exact List.cons_ne_nil _ _

theorem isTokenStart_of_itemsWritten {items : List Value}
    (h : ItemsWritten noted column items text) :
    ∀ ch ∈ (text ++ back).head?, IsTokenStart ch := by
  cases h with
  | last hvalue | cons hvalue hrest =>
      exact fun ch hch => Option.some.inj hch ▸ ⟨by decide, by decide, by decide⟩

end Starts

namespace Lexer

variable {l : Lexer} {kinds : List TokenKind} {columns : List Nat} {m column : Nat}
  {keyAllowed : Bool} {rest : List Char}

/-!
## Indicators
-/

/-- The columns of the collections that are open behind an indicator in a column. -/
def openedAt (column : Nat) (columns : List Nat) : List Nat :=
  if columns.head? = some column then columns else column :: columns

/-- The token that opens a collection in a column, unless one is open there. -/
def opening (kind : TokenKind) (column : Nat) (columns : List Nat) : List TokenKind :=
  if columns.head? = some column then [] else [kind]

theorem openedAt_self (m : Nat) (columns : List Nat) : openedAt m (m :: columns) = m :: columns :=
  if_pos rfl

theorem opening_self (kind : TokenKind) (m : Nat) (columns : List Nat) :
    opening kind m (m :: columns) = [] := if_pos rfl

theorem head?_openedAt (m : Nat) (columns : List Nat) : (openedAt m columns).head? = some m := by
  rw [openedAt]
  split
  · assumption
  · rfl

/-- The first indicator in a column opens the collection. -/
theorem Stands.openCollection (h : l.Stands kinds columns m true rest)
    (hcolumns : ∀ n ∈ columns.head?, n ≤ m) (kind : TokenKind) (problem : Problem) :
    ∃ l', l.openCollection kind problem = .ok l' ∧
      l'.Stands (kinds ++ opening kind m columns) (openedAt m columns) m true rest := by
  have hindent := h.found.indent_eq_iff (m := m)
  have hle := h.found.indent_le hcolumns
  rw [Lexer.openCollection, if_neg (by simp [h.found.depth]), if_neg (by simp [h.keyAllowed]),
    addIndent, h.column, opening, openedAt]
  by_cases hopen : columns.head? = some m
  · have hself : ¬l.indent < ((m : Nat) : Int) := by
      rw [hindent.mpr hopen]
      omega
    rw [if_neg hself, if_pos hopen, if_pos hopen, List.append_nil]
    exact ⟨l, rfl, h⟩
  · have hlower : l.indent < ((m : Nat) : Int) :=
      lt_of_le_of_ne hle fun heq => hopen (hindent.mp heq)
    have hpushed := h.found.push ⟨kind, l.cursor.mark, l.cursor.mark⟩
    rw [if_pos hlower, if_neg hopen, if_neg hopen]
    refine ⟨_, rfl, ⟨hpushed.tokens, hpushed.count, hpushed.depth, hpushed.finished, ?_⟩, h.rest,
      h.column, h.keyAllowed, h.candidates⟩
    rw [List.map_cons, List.cons_append, ← h.found.columns]
    rfl

theorem Stands.indicator {ch : Char} (h : l.Stands kinds columns m true (ch :: rest))
    (hline : Style.isBreak ch = false ∧ ch ≠ '\uFEFF') (kind : TokenKind) (keyAllowed : Bool) :
    ({ l.indicator kind 1 with keyAllowed } : Lexer).release.Stands (kinds ++ [kind]) columns (m + 1)
      keyAllowed rest := by
  have hpushed := h.found.push ⟨kind, l.cursor.mark, (l.cursor.forward 1).mark⟩
  have hplace := Cursor.place_forward_one h.rest hline
  refine ⟨hpushed.elsewhere _ _ _ _, Cursor.rest_forward_one h.rest, ?_, rfl, h.candidates⟩
  rw [← h.column]
  exact hplace.2

theorem dropCandidate_of_nil (h : l.candidates = []) : l.dropCandidate = .ok l := by
  rw [dropCandidate, candidate?, h]
  rfl

theorem advance_hyphen (h : l.Awaits kinds columns m true ('-' :: rest))
    (hcolumns : ∀ n ∈ columns.head?, n ≤ m) (hparted : Style.atSeparator rest = true) :
    ∃ l', l.advance = .ok l' ∧
      l'.Stands (kinds ++ opening .blockSequenceStart m columns ++ [.blockEntry])
        (openedAt m columns) (m + 1) true rest := by
  rcases h.stands hcolumns with ⟨s, hskip, hstands⟩
  rcases hstands.openCollection hcolumns .blockSequenceStart .entryNotAllowed with
    ⟨opened, hopen, hopened⟩
  have htake : (s.unwind s.cursor.column).takeToken '-' rest =
      .ok { opened.indicator .blockEntry 1 with keyAllowed := true } := by
    rw [takeToken_hyphen hstands.rest hparted, takeBlockEntry, hopen]
    simp only [bind, Except.bind, dropCandidate_of_nil hopened.candidates]
  exact ⟨_, advance_eq hskip hstands.rest htake (dropStale_of_nil hopened.candidates),
    hopened.indicator (by decide) _ _⟩

theorem advance_question (h : l.Awaits kinds columns m true ('?' :: rest))
    (hcolumns : ∀ n ∈ columns.head?, n ≤ m) (hparted : Style.atSeparator rest = true) :
    ∃ l', l.advance = .ok l' ∧
      l'.Stands (kinds ++ opening .blockMappingStart m columns ++ [.key])
        (openedAt m columns) (m + 1) true rest := by
  rcases h.stands hcolumns with ⟨s, hskip, hstands⟩
  rcases hstands.openCollection hcolumns .blockMappingStart .keyNotAllowed with
    ⟨opened, hopen, hopened⟩
  have htake : (s.unwind s.cursor.column).takeToken '?' rest =
      .ok { opened.indicator .key 1 with keyAllowed := true } := by
    rw [takeToken_question hstands.rest hparted, takeKey, hopen]
    simp only [bind, Except.bind, dropCandidate_of_nil hopened.candidates]
    simp [Lexer.indicator, Lexer.push, hopened.found.depth]
  exact ⟨_, advance_eq hskip hstands.rest htake (dropStale_of_nil hopened.candidates),
    hopened.indicator (by decide) _ _⟩

theorem advance_colon (h : l.Awaits kinds (m :: columns) m true (':' :: rest))
    (hparted : Style.atSeparator rest = true) :
    ∃ l', l.advance = .ok l' ∧ l'.Stands (kinds ++ [.value]) (m :: columns) (m + 1) true rest := by
  have hcolumns : ∀ n ∈ (m :: columns).head?, n ≤ m := fun n hn => Option.some.inj hn ▸ Nat.le_refl m
  rcases h.stands hcolumns with ⟨s, hskip, hstands⟩
  rcases hstands.openCollection hcolumns .blockMappingStart .valueNotAllowed with
    ⟨opened, hopen, hopened⟩
  rw [opening_self, openedAt_self, List.append_nil] at hopened
  have htake : (s.unwind s.cursor.column).takeToken ':' rest =
      .ok { opened.indicator .value 1 with keyAllowed := true } := by
    rw [takeToken_colon hstands.rest hparted, takeValue, candidate?, hstands.candidates]
    simp only [List.lookup_nil, hopen, bind, Except.bind]
    simp [Lexer.indicator, Lexer.push, hopened.found.depth]
  exact ⟨_, advance_eq hskip hstands.rest htake (dropStale_of_nil hopened.candidates),
    hopened.indicator (by decide) _ _⟩

/-!
## Values on one line
-/

section Values

variable {level c : Nat} {v : Value} {text tail back : List Char}

theorem takeToken_scalar (hlevel : 0 < level) (h : ScalarWritten level v text) (hdepth : l.depth = 0)
    (hnone : l.candidates = []) (hindent : l.indent < level) (hcolumn : l.indent ≤ l.cursor.column)
    (htail : EndsScalar l.indent tail) (hrest : l.cursor.rest = text ++ tail) :
    ∃ ch rest token cursor keyAllowed, l.cursor.rest = ch :: rest ∧ token.kind = scalarKind v ∧
      l.takeToken ch rest = .ok { l.considering.push token with cursor, keyAllowed } ∧
      l.IsBehind text tail cursor keyAllowed := by
  cases h with
  | text h =>
      rcases takeToken_written hlevel h (absurd · Bool.false_ne_true) hdepth hnone hindent hcolumn htail
        hrest with
        ⟨ch, rest, token, cursor, keyAllowed, hstart, -, htoken⟩
      exact ⟨ch, rest, token, cursor, keyAllowed, hstart, htoken⟩
  | word hword hv =>
      rcases word?_spec hword hv with ⟨hne, hplain, hletters⟩
      have hlaid := laid_word level hne hletters
      rcases exists_isPlainStart hne hplain hlaid htail with ⟨ch, rest, htext, hstart⟩
      rcases takePlain_eq hlevel hne hplain hlaid hdepth hnone hindent hcolumn htail hrest with
        ⟨token, cursor, keyAllowed, hkind, htake, hbehind⟩
      rw [htext] at hrest
      rw [← takeToken_plain hdepth hrest hstart] at htake
      have hscalar : scalarKind v = .scalar true (String.ofList text) := by
        cases v with
        | str s => cases hword
        | null | bool b | int i | float d | list items | map entries =>
            rw [scalarKind, hword]
            · rfl
            · intro s hs
              cases hs
      exact ⟨ch, rest, token, cursor, keyAllowed, hrest, hkind.trans hscalar.symm, htake, hbehind⟩

theorem isTokenStart_of_scalarWritten {indent : Int} (h : ScalarWritten level v text)
    (htail : EndsScalar indent tail) : ∀ ch ∈ (text ++ tail).head?, IsTokenStart ch := by
  cases h with
  | text h => exact isTokenStart_of_written h htail
  | word hword hv =>
      rcases word?_spec hword hv with ⟨hne, hplain, hletters⟩
      have hlaid := laid_word level hne hletters
      rcases exists_isPlainStart hne hplain hlaid htail with ⟨ch, rest, htext, hstart⟩
      rw [htext]
      exact fun other hother => Option.some.inj hother ▸ hstart.start

/-- Nothing that starts behind the indentation has to be a key. -/
theorem not_required_considering (h : l.Stands kinds (m :: columns) column keyAllowed rest)
    (hinside : m < column) : ∀ entry ∈ l.considering.candidates,
      entry.2.mark = l.cursor.mark ∧ entry.2.required = false := by
  intro entry hentry
  rcases mem_candidates_considering h.candidates entry hentry with ⟨hmark, -, hrequired⟩
  refine ⟨hmark, hrequired.trans (beq_eq_false_iff_ne.mpr ?_)⟩
  rw [h.column, h.found.indent_cons.1]
  omega

theorem advance_scalar (h : l.Awaits kinds (m :: columns) column keyAllowed (text ++ (newLine c ++ back)))
    (hscalar : ScalarWritten level v text) (hlevel : m < level) (hinside : m < column) (hc : c ≤ m)
    (hback : ∀ ch ∈ back.head?, IsTokenStart ch) :
    ∃ l', l.advance = .ok l' ∧ l'.Awaits (kinds ++ [scalarKind v]) (m :: columns) c true back := by
  have hcolumns : ∀ n ∈ (m :: columns).head?, n ≤ column :=
    fun n hn => Option.some.inj hn ▸ Nat.le_of_lt hinside
  rcases h.stands hcolumns with ⟨s, hskip, hstands⟩
  generalize hs : s.unwind s.cursor.column = u at hstands
  have hindent : u.indent = m := hstands.found.indent_cons.1
  rcases takeToken_scalar (Nat.zero_lt_of_lt hlevel) hscalar hstands.found.depth hstands.candidates
    (by omega) (by rw [hstands.column]; omega) (.line c back (by omega) hback) hstands.rest with
    ⟨ch, rest, token, cursor, keyAllowed, hstart, hkind, htake, hbehind⟩
  have hcandidates := not_required_considering hstands hinside
  have hdrop := dropStale_eq (l := { u.considering.push token with cursor, keyAllowed })
    fun entry hentry _ => (hcandidates entry hentry).2
  have hfound := hstands.found.considering.push token
  rw [hkind] at hfound
  subst hs
  refine ⟨_, advance_eq hskip hstart htake hdrop, ?_⟩
  exact awaits_of_isBehind hstands.rest hback hbehind (hfound.elsewhere _ _ _ _)
    fun entry hentry => hcandidates entry (List.mem_of_mem_filter hentry)

/-- Brackets and their tokens. -/
inductive AreBrackets : (opening closing : Char) → (start stop : TokenKind) → Prop where
  | square : AreBrackets '[' ']' .flowSequenceStart .flowSequenceEnd
  | curly : AreBrackets '\x7b' '\x7d' .flowMappingStart .flowMappingEnd

variable {opening closing : Char} {start stop : TokenKind}

theorem AreBrackets.inLine (h : AreBrackets opening closing start stop) :
    (Style.isBreak opening = false ∧ opening ≠ '\uFEFF') ∧ IsTokenStart opening ∧
      (Style.isBreak closing = false ∧ closing ≠ '\uFEFF') ∧ IsTokenStart closing := by
  cases h <;>
    exact ⟨by decide, ⟨by decide, by decide, by decide⟩, by decide, ⟨by decide, by decide, by decide⟩⟩

theorem takeToken_opening (h : AreBrackets opening closing start stop)
    (hrest : l.cursor.rest = opening :: rest) :
    l.takeToken opening rest = l.openBracket start := by
  cases h with
  | square | curly =>
      rcases atTriple_of_rest hrest (by decide) with ⟨hhyphen, hpoint⟩
      simp [takeToken, hhyphen, hpoint]

theorem takeToken_closing (h : AreBrackets opening closing start stop)
    (hrest : l.cursor.rest = closing :: rest) :
    l.takeToken closing rest = l.closeBracket stop := by
  cases h with
  | square | curly =>
      rcases atTriple_of_rest hrest (by decide) with ⟨hhyphen, hpoint⟩
      simp [takeToken, hhyphen, hpoint]

theorem dropStale_considering {t : Lexer} (hnone : l.candidates = [])
    (hcandidates : t.candidates = l.considering.candidates) (hline : t.cursor.line = l.cursor.line)
    (hindex : t.cursor.index ≤ l.cursor.index + 1024) : t.dropStale = .ok t := by
  refine dropStale_of_fresh fun entry hentry => ?_
  rcases mem_candidates_considering hnone entry (hcandidates ▸ hentry) with ⟨hmark, hplaced, -⟩
  simp only [isStale, Bool.or_eq_false_iff, bne_eq_false_iff_eq, decide_eq_false_iff_not]
  exact ⟨by rw [hmark, hline]; rfl, by omega⟩

theorem lookup_considering (hnone : l.candidates = []) : l.considering.candidates.lookup 1 = none := by
  rw [considering]
  split
  · rfl
  · rw [hnone]
    rfl

/-- The lexer behind an opening bracket, which may be the start of a key. -/
def opened (l : Lexer) (start : TokenKind) : Lexer :=
  { l.considering.indicator start 1 with depth := 1, keyAllowed := true }

/-- The lexer behind a pair of brackets. -/
def bracketed (l : Lexer) (start stop : TokenKind) : Lexer :=
  { (l.opened start).release.indicator stop 1 with depth := 0, keyAllowed := false }

theorem cursor_opened (l : Lexer) (start : TokenKind) :
    (l.opened start).cursor = l.cursor.forward 1 :=
  congrArg (Cursor.forward · 1) (cursor_considering l)

theorem cursor_bracketed (l : Lexer) (start stop : TokenKind) :
    (l.bracketed start stop).cursor = l.cursor.forward 2 :=
  (congrArg (Cursor.forward · 1) (cursor_opened l start)).trans (Cursor.forward_forward l.cursor 1 1)

/-- Behind the opening bracket a candidate is kept. -/
theorem dropStale_opened {t : Lexer} (hnone : l.candidates = []) (hrest : l.cursor.rest = ch :: rest)
    (hinLine : Style.isBreak ch = false ∧ ch ≠ '\uFEFF') (ht : t.candidates = l.considering.candidates)
    (hcursor : t.cursor = l.cursor.forward 1) : t.dropStale = .ok t := by
  have hindex : (l.cursor.forward 1).index = l.cursor.index + 1 := Cursor.index_step hrest
  exact dropStale_considering hnone ht (hcursor ▸ (Cursor.place_forward_one hrest hinLine).1)
    (by rw [hcursor, hindex]; omega)

theorem advance_opening {s : Lexer} (hbrackets : AreBrackets opening closing start stop)
    (hskip : l.skipToToken.dropStale = .ok s) (hdepth : (s.unwind s.cursor.column).depth = 0)
    (hnone : (s.unwind s.cursor.column).candidates = [])
    (hrest : (s.unwind s.cursor.column).cursor.rest = opening :: rest) :
    l.advance = .ok ((s.unwind s.cursor.column).opened start).release := by
  refine advance_eq hskip hrest ?_
    (dropStale_opened hnone hrest hbrackets.inLine.1 rfl (cursor_opened _ start))
  rw [takeToken_opening hbrackets hrest, openBracket, addCandidate_eq hdepth hnone]
  simp only [bind, Except.bind, depth_considering, hdepth]
  rfl

theorem advance_closing (hbrackets : AreBrackets opening closing start stop)
    (hnone : l.candidates = []) (hrest : l.cursor.rest = opening :: closing :: rest) :
    (l.opened start).release.advance = .ok (l.bracketed start stop).release := by
  rcases hbrackets.inLine with ⟨hopening, -, hclosing, htoken⟩
  have hinside : (l.opened start).release.cursor.rest = closing :: rest :=
    cursor_opened l start ▸ Cursor.rest_forward_one hrest
  have hskip : (l.opened start).release.skipToToken.dropStale = .ok (l.opened start).release := by
    rw [skipToToken_self fun ch hch => ?_]
    · exact dropStale_opened hnone hrest hopening rfl (cursor_opened l start)
    · rw [hinside] at hch
      exact Option.some.inj hch ▸ htoken
  have hdepth : ¬((l.opened start).release.depth == 0) = true := Bool.false_ne_true
  have hunwind : (l.opened start).release.unwind (l.opened start).release.cursor.column =
      (l.opened start).release := if_neg hdepth
  have htake : (l.opened start).release.takeToken closing rest = .ok (l.bracketed start stop) := by
    have hcandidate : (l.opened start).release.candidate? = none := lookup_considering hnone
    rw [takeToken_closing hbrackets hinside, closeBracket, dropCandidate, hcandidate]
    rfl
  have hdrop : (l.bracketed start stop).dropStale = .ok (l.bracketed start stop) := by
    have hcut : l.cursor.rest = [opening, closing] ++ rest := hrest
    have hplace := Cursor.place_forward_of_inLine hcut (by simpa using ⟨hopening, hclosing⟩)
    have hindex := Cursor.index_forward hcut
    simp only [List.length_cons, List.length_nil, Nat.zero_add] at hplace hindex
    exact dropStale_considering hnone rfl (cursor_bracketed l start stop ▸ hplace.1)
      (by rw [cursor_bracketed, hindex]; omega)
  exact advance_eq hskip (hunwind.symm ▸ hinside) (hunwind.symm ▸ htake) hdrop

theorem Found.bracketed (h : l.Found kinds columns) (start stop : TokenKind) :
    (l.bracketed start stop).release.Found (kinds ++ [start, stop]) columns := by
  have hpushed := (h.considering.push ⟨start, l.considering.cursor.mark,
    (l.considering.cursor.forward 1).mark⟩).push ⟨stop, (l.opened start).cursor.mark,
    ((l.opened start).cursor.forward 1).mark⟩
  rw [List.append_assoc] at hpushed
  exact ⟨hpushed.tokens, hpushed.count, rfl, hpushed.finished, hpushed.columns⟩

theorem goes_brackets (hbrackets : AreBrackets opening closing start stop)
    (h : l.Awaits kinds (m :: columns) column keyAllowed (opening :: closing :: (newLine c ++ back)))
    (hinside : m < column) (hback : ∀ ch ∈ back.head?, IsTokenStart ch) :
    ∃ l', l.Goes l' 2 ∧ l'.Awaits (kinds ++ [start, stop]) (m :: columns) c true back := by
  have hcolumns : ∀ n ∈ (m :: columns).head?, n ≤ column :=
    fun n hn => Option.some.inj hn ▸ Nat.le_of_lt hinside
  rcases h.stands hcolumns with ⟨s, hskip, hstands⟩
  have hopening := advance_opening hbrackets hskip hstands.found.depth hstands.candidates hstands.rest
  have hclosing := advance_closing hbrackets hstands.candidates hstands.rest
  have hunfinished : ((s.unwind s.cursor.column).opened start).release.finished = false :=
    hstands.found.considering.finished
  refine ⟨_, (goes_of_advance h.unfinished hopening).trans (goes_of_advance hunfinished hclosing), ?_⟩
  have hcut : (s.unwind s.cursor.column).cursor.rest = [opening, closing] ++ (newLine c ++ back) :=
    hstands.rest
  exact awaits_of_isBehind hcut hback (Or.inl ⟨cursor_bracketed _ start stop, rfl⟩)
    (hstands.found.bracketed start stop) (not_required_considering hstands hinside)

end Values

/-!
## A key on the line of its colon
-/

section Keys

variable {level : Nat} {cs text back : List Char} {kind : TokenKind} {key : KeyCandidate}

/-- A text in a column stands in front of a colon, and it can be the key. -/
structure BehindKey (l : Lexer) (kinds : List TokenKind) (columns : List Nat) (column : Nat)
    (kind : TokenKind) (key : KeyCandidate) (back : List Char) : Prop where
  found : l.Found (kinds ++ [kind]) columns
  rest : l.cursor.rest = ':' :: back
  behind : column < l.cursor.column
  candidates : l.candidates = [(0, key)]
  fresh : l.isStale key = false
  token : key.token = kinds.length
  start : key.mark.column = column

theorem advance_key (h : l.Awaits kinds columns m true (text ++ ':' :: back))
    (hcolumns : ∀ n ∈ columns.head?, n ≤ m) (hparted : Style.atSeparator back = true)
    (hlevel : m < level) (hwritten : Written level true cs text)
    (hline : Style.isMultiline cs = false) (hlength : text.length ≤ 1024) :
    ∃ l' key, l.advance = .ok l' ∧
      l'.BehindKey kinds columns m (.scalar (Style.ofText true cs == .plain) (String.ofList (reread cs)))
        key back := by
  rcases h.stands hcolumns with ⟨s, hskip, hstands⟩
  generalize hs : s.unwind s.cursor.column = u at hstands
  have hindent := hstands.found.indent_le hcolumns
  rcases takeToken_written (Nat.zero_lt_of_lt hlevel) hwritten (fun _ => hline) hstands.found.depth
    hstands.candidates (by omega) (by rw [hstands.column]; exact hindent) (.colon back hparted)
    hstands.rest with ⟨ch, rest, token, cursor, keyAllowed, hstart, -, hkind, htake, hbehind⟩
  rcases hbehind with ⟨rfl, rfl⟩ | ⟨_, _, hfeed, -⟩
  -- The text is on one line and short enough, so behind it the candidate is still fresh.
  · let key : KeyCandidate :=
      ⟨u.count, u.indent == (u.cursor.column : Int), u.cursor.index, u.cursor.mark⟩
    let t : Lexer := { u.considering.push token with
      cursor := u.cursor.forward text.length, keyAllowed := false }
    have hcandidates : t.candidates = [(0, key)] := by
      change u.considering.candidates = _
      rw [considering, if_pos hstands.keyAllowed]
    have hplace := Cursor.place_forward_of_inLine hstands.rest (inLine_of_written hwritten hline)
    have hindex := Cursor.index_forward hstands.rest
    have hfresh : t.isStale key = false := by
      simp only [isStale, Bool.or_eq_false_iff, bne_eq_false_iff_eq, decide_eq_false_iff_not]
      refine ⟨hplace.1.symm, ?_⟩
      change ¬1024 < (u.cursor.forward text.length).index - u.cursor.index
      omega
    have hfound := hstands.found.considering.push token
    rw [hkind] at hfound
    have hdrop : t.dropStale = .ok t := dropStale_of_fresh (by simp [hcandidates, hfresh])
    have hcolumn : m < t.cursor.column := by
      have hpositive := List.length_pos_of_ne_nil (ne_nil_of_written hwritten)
      change m < (u.cursor.forward text.length).column
      rw [hplace.2, hstands.column]
      omega
    subst hs
    exact ⟨_, key, advance_eq hskip hstart htake hdrop, hfound.elsewhere _ _ _ _,
      Cursor.rest_forward_append hstands.rest, hcolumn, hcandidates, hfresh, hstands.found.count,
      hstands.column⟩
  · cases hfeed

theorem reversed_insert {front behind : List Token} {number : Nat} (token : Token)
    (h : l.reversed = front ++ behind) (hnumber : l.count - number = front.length) :
    (l.insert number token).reversed = front ++ token :: behind := by
  simp [insert, h, hnumber]

/-- The token of the key is put in front of the text, and of the key the token that opens the map. -/
theorem confirmKey_eq (h : l.BehindKey kinds columns m kind key back)
    (hcolumns : ∀ n ∈ columns.head?, n ≤ m) :
    ∃ confirmed : Lexer,
      l.confirmKey key = { confirmed.indicator .value 1 with keyAllowed := false } ∧
      confirmed.Found (kinds ++ opening .blockMappingStart m columns ++ [.key, kind])
        (openedAt m columns) ∧
      confirmed.cursor = l.cursor ∧ confirmed.candidates = [] := by
  have htokens := h.found.tokens
  rw [List.reverse_append, List.reverse_singleton, List.singleton_append] at htokens
  rcases List.map_eq_cons_iff.mp htokens with ⟨token, behind, hreversed, rfl, hkinds⟩
  let l₁ : Lexer := { l with candidates := l.candidates.filter (·.1 != l.depth) }
  have hcut : l₁.reversed = [token] ++ behind := hreversed
  have hcount : l₁.count - key.token = [token].length := by simp [l₁, h.found.count, h.token]
  have hinsert := reversed_insert ⟨.key, key.mark, key.mark⟩ hcut hcount
  have hnone : l₁.candidates = [] := by simp [l₁, h.candidates, h.found.depth]
  have hle := h.found.indent_le hcolumns
  have hindent := h.found.indent_eq_iff (m := m)
  -- Inside a map that is open the key gets only its own token; where none is open in this column,
  -- the token that opens it is put in front of that.
  by_cases hopen : columns.head? = some m
  · rw [opening, openedAt, if_pos hopen, if_pos hopen]
    refine ⟨l₁.insert key.token ⟨.key, key.mark, key.mark⟩, ?_, ?_, rfl, hnone⟩
    · have hsame : ¬l.indent < ((m : Nat) : Int) := by
        rw [hindent.mpr hopen]
        omega
      simp only [confirmKey, addIndent, insert, h.found.depth, h.start, BEq.rfl, if_true, hsame,
        if_false, l₁]
      rfl
    · refine ⟨?_, ?_, h.found.depth, h.found.finished, h.found.columns⟩
      · rw [hinsert]
        simp [hkinds]
      · simp [insert, l₁, h.found.count]
  · rw [opening, openedAt, if_neg hopen, if_neg hopen]
    have hlower : l.indent < ((m : Nat) : Int) :=
      lt_of_le_of_ne hle fun heq => hopen (hindent.mp heq)
    let l₂ : Lexer := { l₁.insert key.token ⟨.key, key.mark, key.mark⟩ with
      indent := (m : Nat), outer := l.indent :: l.outer }
    have hcutBoth : l₂.reversed = [token, ⟨.key, key.mark, key.mark⟩] ++ behind := hinsert
    have hcountBoth : l₂.count - key.token = [token, ⟨.key, key.mark, key.mark⟩].length := by
      simp [l₂, l₁, insert, h.found.count, h.token, Nat.add_assoc]
    have hinsertBoth := reversed_insert ⟨.blockMappingStart, key.mark, key.mark⟩ hcutBoth hcountBoth
    refine ⟨l₂.insert key.token ⟨.blockMappingStart, key.mark, key.mark⟩, ?_, ?_, rfl, hnone⟩
    · simp only [confirmKey, addIndent, insert, h.found.depth, h.start, BEq.rfl, if_true, hlower,
        l₁, l₂]
    · refine ⟨?_, ?_, h.found.depth, h.found.finished, ?_⟩
      · rw [hinsertBoth]
        simp [hkinds]
      · simp [insert, l₂, l₁, h.found.count]
      · rw [List.map_cons, List.cons_append, ← h.found.columns]
        rfl

/-- The colon makes the text in front of it the key. -/
theorem advance_confirm (h : l.BehindKey kinds columns m kind key back)
    (hcolumns : ∀ n ∈ columns.head?, n ≤ m) (hparted : Style.atSeparator back = true) :
    ∃ l' column, m < column ∧ l.advance = .ok l' ∧
      l'.Stands (kinds ++ opening .blockMappingStart m columns ++ [.key, kind] ++ [.value])
        (openedAt m columns) column false back := by
  have hskip : l.skipToToken.dropStale = .ok l := by
    rw [skipToToken_self fun other hother => ?_]
    · exact dropStale_of_fresh (by simp [h.candidates, h.fresh])
    · rw [h.rest] at hother
      exact Option.some.inj hother ▸ ⟨by decide, by decide, by decide⟩
  have hunwind : l.unwind l.cursor.column = l :=
    unwind_self (Int.le_trans (h.found.indent_le hcolumns)
      (Int.ofNat_le.mpr (Nat.le_of_lt h.behind)))
  have htake : l.takeToken ':' back = .ok (l.confirmKey key) := by
    rw [takeToken_colon h.rest hparted, takeValue, candidate?, h.candidates, h.found.depth]
    rfl
  rcases confirmKey_eq h hcolumns with ⟨confirmed, hconfirm, hfound, hcursor, hnone⟩
  have hplace := Cursor.place_forward_one h.rest (by decide)
  have hpushed := hfound.push ⟨.value, confirmed.cursor.mark, (confirmed.cursor.forward 1).mark⟩
  have hdrop : (l.confirmKey key).dropStale = .ok (l.confirmKey key) :=
    dropStale_of_nil (by rw [hconfirm]; exact hnone)
  have hadvance : l.advance = .ok (l.confirmKey key).release :=
    advance_eq hskip (hunwind.symm ▸ h.rest) (hunwind.symm ▸ htake) hdrop
  refine ⟨_, l.cursor.column + 1, Nat.lt_succ_of_lt h.behind, hadvance, ?_⟩
  rw [hconfirm]
  refine ⟨hpushed.elsewhere _ _ _ _, ?_, ?_, rfl, hnone⟩
  · change (confirmed.cursor.forward 1).rest = back
    rw [hcursor]
    exact Cursor.rest_forward_one h.rest
  · change (confirmed.cursor.forward 1).column = _
    rw [hcursor]
    exact hplace.2

theorem exists_openedAt (m : Nat) (columns : List Nat) : ∃ outer, openedAt m columns = m :: outer :=
  List.head?_eq_some_iff.mp (head?_openedAt m columns)

/-- Lists and maps go on below the keys that stand on the line of their colon. -/
theorem isSimpleKey_of_keyWritten {below : Bool} {k : String} (h : KeyWritten m below k text) :
    Pen.isSimpleKey k.toList = below := by
  cases h with
  | simple hsimple h => exact hsimple
  | long hsimple h => exact hsimple

theorem goes_key {below : Bool} {k : String} (hkey : KeyWritten m below k text) (hfits : KeyFits k)
    (h : l.Awaits kinds columns m true (text ++ back)) (hcolumns : ∀ n ∈ columns.head?, n ≤ m)
    (hparted : Style.atSeparator back = true) :
    ∃ l' steps column keyAllowed, l.Goes l' steps ∧ steps ≤ text.length ∧ m < column ∧
      (below = false → column = m + 1 ∧ keyAllowed = true) ∧
      l'.Stands (kinds ++ opening .blockMappingStart m columns ++ [.key, textKind below k, .value])
        (openedAt m columns) column keyAllowed back := by
  -- A key on one line is a candidate that its colon confirms; a long one stands behind a question
  -- mark and has its colon on a line of its own.
  cases hkey with
  | @simple _ text hsimple hkey =>
      rw [List.append_assoc, List.singleton_append] at h
      rcases advance_key h hcolumns hparted (by omega) hkey (inLine_of_isSimpleKey hsimple)
        (hfits.length_le hsimple hkey) with ⟨l₁, key, hstepKey, hbehind⟩
      rcases advance_confirm hbehind hcolumns hparted with ⟨l₂, column, hcolumn, hstep, hstands⟩
      have hpositive := List.length_pos_of_ne_nil (ne_nil_of_written hkey)
      refine ⟨l₂, 2, column, false, (goes_of_advance h.unfinished hstepKey).trans
        (goes_of_advance hbehind.found.finished hstep), ?_, hcolumn, nofun, ?_⟩
      · rw [List.length_append, List.length_singleton]
        omega
      · simpa [textKind, rereadText] using hstands
  | @long _ text hsimple hkey =>
      have hrest : '?' :: ' ' :: text ++ (newLine m ++ [':']) ++ back =
          '?' :: ' ' :: (text ++ (newLine m ++ ':' :: back)) := by simp
      rw [hrest] at h
      rcases exists_openedAt m columns with ⟨outer, hopened⟩
      rcases advance_question h hcolumns rfl with ⟨l₁, hstepKey, hstands⟩
      rw [hopened] at hstands
      have hcolon : ∀ ch ∈ (':' :: back).head?, IsTokenStart ch := fun ch hch =>
        Option.some.inj hch ▸ ⟨by decide, by decide, by decide⟩
      have hends : EndsScalar m (newLine m ++ ':' :: back) := .line m _ (Int.le_refl _) hcolon
      have hawaits := hstands.awaits_blank (isTokenStart_of_written hkey hends)
      rcases advance_scalar hawaits (.text hkey) (by omega) (by omega) (Nat.le_refl m) hcolon with
        ⟨l₂, hstepText, hawaitsColon⟩
      rcases advance_colon hawaitsColon hparted with ⟨l₃, hstepColon, hbehind⟩
      refine ⟨l₃, 3, m + 1, true, ((goes_of_advance h.unfinished hstepKey).trans
        (goes_of_advance hawaits.unfinished hstepText)).trans
        (goes_of_advance hawaitsColon.unfinished hstepColon), ?_, Nat.lt_succ_self m,
        fun _ => ⟨rfl, rfl⟩, ?_⟩
      · simp only [List.length_append, List.length_cons, newLine]
        omega
      · rw [hopened]
        simpa [scalarKind] using hbehind

end Keys

/-!
## Collections
-/

/-- Behind an indicator the lexer goes over a value, to the next line of a collection around it; it
takes no more steps than there are characters. -/
def GoesNode (noted : Bool) (v : Value) : Prop :=
  ∀ ⦃l : Lexer⦄ ⦃kinds : List TokenKind⦄ ⦃columns : List Nat⦄ ⦃m column c : Nat⦄
    ⦃keyAllowed below : Bool⦄ ⦃text back : List Char⦄,
    l.Stands kinds (m :: columns) column keyAllowed (text ++ (newLine c ++ back)) →
    m < column → (below = false → column = m + 1 ∧ keyAllowed = true) →
    NodeWritten noted m below v text → c ≤ m → (∀ ch ∈ back.head?, IsTokenStart ch) →
    ∃ l' steps, l.Goes l' steps ∧ steps ≤ text.length ∧
      l'.Awaits (kinds ++ nodeKinds below v) (m :: columns) c true back

/-- In their column the lexer goes over the items of a list. -/
def GoesItems (noted : Bool) (items : List Value) : Prop :=
  ∀ ⦃l : Lexer⦄ ⦃kinds : List TokenKind⦄ ⦃columns : List Nat⦄ ⦃m c : Nat⦄ ⦃text back : List Char⦄,
    l.Awaits kinds columns m true (text ++ (newLine c ++ back)) → (∀ n ∈ columns.head?, n ≤ m) →
    ItemsWritten noted m items text → c ≤ m → (∀ ch ∈ back.head?, IsTokenStart ch) →
    ∃ l' steps, l.Goes l' steps ∧ steps ≤ text.length ∧
      l'.Awaits (kinds ++ opening .blockSequenceStart m columns ++ itemKinds items)
        (openedAt m columns) c true back

/-- In their column the lexer goes over the entries of a map. -/
def GoesEntries (noted : Bool) (entries : List (String × Value)) : Prop :=
  ∀ ⦃l : Lexer⦄ ⦃kinds : List TokenKind⦄ ⦃columns : List Nat⦄ ⦃m c : Nat⦄ ⦃text back : List Char⦄,
    l.Awaits kinds columns m true (text ++ (newLine c ++ back)) → (∀ n ∈ columns.head?, n ≤ m) →
    EntriesWritten noted m entries text → c ≤ m → (∀ ch ∈ back.head?, IsTokenStart ch) →
    ∃ l' steps, l.Goes l' steps ∧ steps ≤ text.length ∧
      l'.Awaits (kinds ++ opening .blockMappingStart m columns ++ entryKinds entries)
        (openedAt m columns) c true back

section Collections

variable {noted below : Bool} {v : Value} {items : List Value} {entries : List (String × Value)}
  {text back : List Char} {c : Nat}

theorem goesNode_of_scalarWritten {level : Nat} (hscalar : ScalarWritten level v text)
    (hlevel : m < level)
    (h : l.Stands kinds (m :: columns) column keyAllowed (' ' :: text ++ (newLine c ++ back)))
    (hinside : m < column) (hc : c ≤ m) (hback : ∀ ch ∈ back.head?, IsTokenStart ch) :
    ∃ l' steps, l.Goes l' steps ∧ steps ≤ (' ' :: text).length ∧
      l'.Awaits (kinds ++ nodeKinds below v) (m :: columns) c true back := by
  have hends : EndsScalar m (newLine c ++ back) := .line c back (Int.ofNat_le.mpr hc) hback
  have hawaits := h.awaits_blank (isTokenStart_of_scalarWritten hscalar hends)
  rcases advance_scalar hawaits hscalar hlevel (Nat.lt_succ_of_lt hinside) hc hback with
    ⟨l', hstep, hnext⟩
  rw [nodeKinds_of_isScalar (isScalar_of_scalarWritten hscalar)]
  exact ⟨l', 1, goes_of_advance hawaits.unfinished hstep, Nat.succ_pos _, hnext⟩

theorem isSkipped_of_remark {remark : List Char} (h : Remark noted remark) : IsSkipped remark := by
  cases h with
  | none => exact .blanks 0
  | some hnoted hcs => exact .comment 2 _ fun ch hch => (hcs ch hch).1

theorem goesNode_of_isScalar (hv : v.isScalar = true) : GoesNode noted v := by
  intro l kinds columns m column c keyAllowed below text back h hinside hfirst hwritten hc hback
  cases hwritten with
  | scalar hscalar => exact goesNode_of_scalarWritten hscalar (by omega) h hinside hc hback
  | noItems | noEntries | items | itemsBelow | entries | entriesBelow => cases hv

theorem goesNode_of_brackets {opening closing : Char} {start stop : TokenKind}
    (hbrackets : AreBrackets opening closing start stop)
    (h : l.Stands kinds (m :: columns) column keyAllowed
      ([' ', opening, closing] ++ (newLine c ++ back)))
    (hinside : m < column) (hback : ∀ ch ∈ back.head?, IsTokenStart ch) :
    ∃ l' steps, l.Goes l' steps ∧ steps ≤ [' ', opening, closing].length ∧
      l'.Awaits (kinds ++ [start, stop]) (m :: columns) c true back := by
  have hawaits := h.awaits_blank fun ch hch => Option.some.inj hch ▸ hbrackets.inLine.2.1
  rcases goes_brackets hbrackets hawaits (Nat.lt_succ_of_lt hinside) hback with ⟨l', hgoes, hnext⟩
  exact ⟨l', 2, hgoes, by simp, hnext⟩

theorem goesNode_list (hitems : GoesItems noted items) : GoesNode noted (.list items) := by
  intro l kinds columns m column c keyAllowed below text back h hinside hfirst hwritten hc hback
  cases hwritten with
  | scalar hscalar => exact goesNode_of_scalarWritten hscalar (by omega) h hinside hc hback
  | noItems => exact goesNode_of_brackets .square h hinside hback
  | @items _ _ text hwritten =>
      rcases hfirst rfl with ⟨rfl, rfl⟩
      have hawaits := h.awaits_blank (isTokenStart_of_itemsWritten hwritten)
      have hcolumns : ∀ n ∈ (m :: columns).head?, n ≤ m + 1 + 1 :=
        fun n hn => Option.some.inj hn ▸ by omega
      rcases hitems hawaits hcolumns hwritten (by omega) hback with ⟨l', steps, hgoes, hsteps, hnext⟩
      have hother : ¬(m :: columns).head? = some (m + 2) := by simp
      rw [opening, openedAt, if_neg hother, if_neg hother] at hnext
      refine ⟨l', steps, hgoes, Nat.le_succ_of_le hsteps, ?_⟩
      rw [nodeKinds_list (ne_nil_of_itemsWritten hwritten), if_neg Bool.false_ne_true]
      simpa using hnext.close (by omega)
  | @itemsBelow _ remark _ text hremark hwritten =>
      rw [List.append_assoc, List.append_assoc] at h
      have hawaits := h.awaits_newLine (isSkipped_of_remark hremark)
        (isTokenStart_of_itemsWritten hwritten)
      have hcolumns : ∀ n ∈ (m :: columns).head?, n ≤ m :=
        fun n hn => Option.some.inj hn ▸ Nat.le_refl m
      rcases hitems hawaits hcolumns hwritten hc hback with ⟨l', steps, hgoes, hsteps, hnext⟩
      rw [opening_self, openedAt_self, List.append_nil] at hnext
      refine ⟨l', steps, hgoes, ?_, ?_⟩
      · simp only [List.length_append]
        omega
      · rwa [nodeKinds_list (ne_nil_of_itemsWritten hwritten), if_pos rfl]

theorem goesNode_map (hentries : GoesEntries noted entries) : GoesNode noted (.map entries) := by
  intro l kinds columns m column c keyAllowed below text back h hinside hfirst hwritten hc hback
  -- Behind a key or below it, entries start two columns further to the right.
  have hgoes : ∀ {text : List Char}, EntriesWritten noted (m + 2) entries text →
      l.Awaits kinds (m :: columns) (m + 2) true (text ++ (newLine c ++ back)) →
      ∃ l' steps, l.Goes l' steps ∧ steps ≤ text.length ∧
        l'.Awaits (kinds ++ nodeKinds below (.map entries)) (m :: columns) c true back := by
    intro text hwritten hawaits
    have hcolumns : ∀ n ∈ (m :: columns).head?, n ≤ m + 2 :=
      fun n hn => Option.some.inj hn ▸ by omega
    rcases hentries hawaits hcolumns hwritten (by omega) hback with ⟨l', steps, hgoes, hsteps, hnext⟩
    have hother : ¬(m :: columns).head? = some (m + 2) := by simp
    rw [opening, openedAt, if_neg hother, if_neg hother] at hnext
    refine ⟨l', steps, hgoes, hsteps, ?_⟩
    rw [nodeKinds_map (ne_nil_of_entriesWritten hwritten)]
    simpa using hnext.close (by omega)
  cases hwritten with
  | scalar hscalar => exact goesNode_of_scalarWritten hscalar (by omega) h hinside hc hback
  | noEntries => exact goesNode_of_brackets .curly h hinside hback
  | @entries _ _ text hwritten =>
      rcases hfirst rfl with ⟨rfl, rfl⟩
      have hawaits := h.awaits_blank (isTokenStart_of_entriesWritten hwritten)
      rcases hgoes hwritten hawaits with ⟨l', steps, hgoes, hsteps, hnext⟩
      exact ⟨l', steps, hgoes, Nat.le_succ_of_le hsteps, hnext⟩
  | @entriesBelow _ remark _ text hremark hwritten =>
      rw [List.append_assoc, List.append_assoc] at h
      have hawaits := h.awaits_newLine (isSkipped_of_remark hremark)
        (isTokenStart_of_entriesWritten hwritten)
      rcases hgoes hwritten hawaits with ⟨l', steps, hgoes, hsteps, hnext⟩
      refine ⟨l', steps, hgoes, ?_, hnext⟩
      simp only [List.length_append]
      omega

theorem goesItems_cons (hv : GoesNode noted v) (hrest : GoesItems noted items) :
    GoesItems noted (v :: items) := by
  intro l kinds columns m c text back h hcolumns hwritten hc hback
  rcases exists_openedAt m columns with ⟨outer, hopened⟩
  -- The hyphen and the value behind it, up to a line in this column or further to the left.
  have hitem : ∀ {front behind : List Char} {c : Nat},
      l.Awaits kinds columns m true ('-' :: (front ++ (newLine c ++ behind))) →
      NodeWritten noted m false v front → c ≤ m → (∀ ch ∈ behind.head?, IsTokenStart ch) →
      ∃ l' steps, l.Goes l' steps ∧ steps ≤ front.length + 1 ∧
        l'.Awaits (kinds ++ opening .blockSequenceStart m columns ++ (.blockEntry :: nodeKinds false v))
          (m :: outer) c true behind := by
    intro front behind c h hnode hc hbehind
    rcases advance_hyphen h hcolumns (atSeparator_of_nodeWritten hnode _) with ⟨l₁, hstep, hstands⟩
    rw [hopened] at hstands
    rcases hv hstands (Nat.lt_succ_self m) (fun _ => ⟨rfl, rfl⟩) hnode hc hbehind with
      ⟨l₂, steps, hgoes, hsteps, hnext⟩
    refine ⟨l₂, _, (goes_of_advance h.unfinished hstep).trans hgoes, Nat.succ_le_succ hsteps, ?_⟩
    simpa using hnext
  cases hwritten with
  | @last _ _ front hnode =>
      rcases hitem h hnode hc hback with ⟨l', steps, hgoes, hsteps, hnext⟩
      rw [hopened]
      exact ⟨l', steps, hgoes, hsteps, by simpa [itemKinds] using hnext⟩
  | @cons _ _ _ front behind hnode hmore =>
      have hcut : '-' :: front ++ (newLine m ++ behind) ++ (newLine c ++ back) =
          '-' :: (front ++ (newLine m ++ (behind ++ (newLine c ++ back)))) := by simp
      rw [hcut] at h
      rcases hitem h hnode (Nat.le_refl m) (isTokenStart_of_itemsWritten hmore) with
        ⟨l₁, steps₁, hgoes₁, hsteps₁, hnext₁⟩
      have hself : ∀ n ∈ (m :: outer).head?, n ≤ m := fun n hn => Option.some.inj hn ▸ Nat.le_refl m
      rcases hrest hnext₁ hself hmore hc hback with ⟨l₂, steps₂, hgoes₂, hsteps₂, hnext₂⟩
      rw [opening_self, openedAt_self, List.append_nil] at hnext₂
      refine ⟨l₂, _, hgoes₁.trans hgoes₂, ?_, ?_⟩
      · simp only [List.length_append, List.length_cons]
        omega
      · rw [hopened]
        simpa [itemKinds] using hnext₂

theorem goesEntries_cons {k : String} (hfits : KeyFits k) (hv : GoesNode noted v)
    (hrest : GoesEntries noted entries) : GoesEntries noted ((k, v) :: entries) := by
  intro l kinds columns m c text back h hcolumns hwritten hc hback
  rcases exists_openedAt m columns with ⟨outer, hopened⟩
  -- The key with its colon and the value behind it, up to a line in this column or further to the
  -- left.
  have hentry : ∀ {below : Bool} {key front behind : List Char} {c : Nat},
      l.Awaits kinds columns m true (key ++ (front ++ (newLine c ++ behind))) →
      KeyWritten m below k key → NodeWritten noted m below v front → c ≤ m →
      (∀ ch ∈ behind.head?, IsTokenStart ch) →
      ∃ l' steps, l.Goes l' steps ∧ steps ≤ key.length + front.length ∧
        l'.Awaits (kinds ++ opening .blockMappingStart m columns ++ (.key ::
          textKind (Pen.isSimpleKey k.toList) k :: .value ::
            nodeKinds (Pen.isSimpleKey k.toList) v)) (m :: outer) c true behind := by
    intro below key front behind c h hkey hnode hc hbehind
    rcases goes_key hkey hfits h hcolumns (atSeparator_of_nodeWritten hnode _) with
      ⟨l₁, steps₁, column, keyAllowed, hgoes₁, hsteps₁, hcolumn, hfirst, hstands⟩
    rw [hopened] at hstands
    rcases hv hstands hcolumn hfirst hnode hc hbehind with ⟨l₂, steps₂, hgoes₂, hsteps₂, hnext⟩
    rw [isSimpleKey_of_keyWritten hkey]
    refine ⟨l₂, _, hgoes₁.trans hgoes₂, by omega, ?_⟩
    simpa using hnext
  cases hwritten with
  | @last _ _ _ _ key front hkey hnode =>
      rw [List.append_assoc] at h
      rcases hentry h hkey hnode hc hback with ⟨l', steps, hgoes, hsteps, hnext⟩
      rw [hopened]
      exact ⟨l', steps, hgoes, by rwa [List.length_append], by simpa [entryKinds] using hnext⟩
  | @cons _ _ _ _ _ key front behind hkey hnode hmore =>
      have hcut : key ++ front ++ (newLine m ++ behind) ++ (newLine c ++ back) =
          key ++ (front ++ (newLine m ++ (behind ++ (newLine c ++ back)))) := by simp
      rw [hcut] at h
      rcases hentry h hkey hnode (Nat.le_refl m) (isTokenStart_of_entriesWritten hmore) with
        ⟨l₁, steps₁, hgoes₁, hsteps₁, hnext₁⟩
      have hself : ∀ n ∈ (m :: outer).head?, n ≤ m := fun n hn => Option.some.inj hn ▸ Nat.le_refl m
      rcases hrest hnext₁ hself hmore hc hback with ⟨l₂, steps₂, hgoes₂, hsteps₂, hnext₂⟩
      rw [opening_self, openedAt_self, List.append_nil] at hnext₂
      refine ⟨l₂, _, hgoes₁.trans hgoes₂, ?_, ?_⟩
      · simp only [List.length_append]
        omega
      · rw [hopened]
        simpa [entryKinds] using hnext₂

mutual

/-- Whatever the value, the lexer goes over it if its keys fit on their lines. -/
theorem goesNode (noted : Bool) : ∀ v, EachPart KeyFits (fun _ => True) v → GoesNode noted v
  | .null, _ => goesNode_of_isScalar rfl
  | .bool _, _ => goesNode_of_isScalar rfl
  | .int _, _ => goesNode_of_isScalar rfl
  | .float _, _ => goesNode_of_isScalar rfl
  | .str _, _ => goesNode_of_isScalar rfl
  | .list items, h => goesNode_list (goesItems noted items h)
  | .map entries, h => goesNode_map (goesEntries noted entries h)

theorem goesItems (noted : Bool) :
    ∀ items, EachItemPart KeyFits (fun _ => True) items → GoesItems noted items
  | [], _ => fun _ _ _ _ _ _ _ _ _ hwritten => nomatch hwritten
  | v :: rest, h => goesItems_cons (goesNode noted v h.1) (goesItems noted rest h.2)

theorem goesEntries (noted : Bool) :
    ∀ entries, EachEntryPart KeyFits (fun _ => True) entries → GoesEntries noted entries
  | [], _ => fun _ _ _ _ _ _ _ _ _ hwritten => nomatch hwritten
  | (_, v) :: rest, h =>
      goesEntries_cons h.1 (goesNode noted v h.2.1) (goesEntries noted rest h.2.2)

end

end Collections

/-!
## Documents
-/

/-- Lines of comments, each with its end. -/
def heading (lines : List (List Char)) : List Char := lines.flatMap (· ++ ['\n'])

theorem exists_length_heading (lines : List (List Char)) :
    ∃ more, (heading lines).length = more + lines.length := by
  induction lines with
  | nil => exact ⟨0, rfl⟩
  | cons line lines ih =>
      rcases ih with ⟨more, hmore⟩
      refine ⟨line.length + more, ?_⟩
      rw [heading] at hmore ⊢
      simp only [List.flatMap_cons, List.length_append, List.length_cons, List.length_nil, hmore]
      omega

theorem exists_skipToToken_go_heading {lines : List (List Char)} {back : List Char}
    (hlines : ∀ line ∈ lines, IsSkipped line) (hdepth : l.depth = 0) (hallowed : l.keyAllowed = true)
    (hcolumn : l.cursor.column = 0) (hrest : l.cursor.rest = heading lines ++ back) (bound : Nat) :
    ∃ cursor, skipToToken.go (bound + lines.length) l = skipToToken.go bound { l with cursor } ∧
      cursor.rest = back ∧ cursor.column = 0 := by
  induction lines generalizing l with
  | nil => exact ⟨l.cursor, rfl, hrest, hcolumn⟩
  | cons line lines ih =>
      rcases List.forall_mem_cons.mp hlines with ⟨hline, hlines⟩
      have hcut : l.cursor.rest = line ++ '\n' :: (heading lines ++ back) := by
        simpa [heading] using hrest
      have hnext : (l.cursor.forward (line.length + 1)).rest = heading lines ++ back := by
        rw [← Cursor.forward_forward]
        exact Cursor.rest_forward_one (Cursor.rest_forward_append hcut)
      have hstart := (Cursor.place_forward_of_isBreak hcut rfl).2
      rcases ih (l := { l with cursor := l.cursor.forward (line.length + 1), keyAllowed := true })
        hlines hdepth rfl hstart hnext with ⟨cursor, hgo, hend⟩
      refine ⟨cursor, ?_, hend⟩
      rw [List.length_cons, ← Nat.add_assoc, skipToToken_go_line hdepth hline hcut, hgo, ← hallowed]

theorem awaits_ofChars {lines : List (List Char)} {text : List Char}
    (hlines : ∀ line ∈ lines, IsSkipped line) (htext : ∀ ch ∈ text.head?, IsTokenStart ch) :
    (ofChars (heading lines ++ text)).Awaits [.streamStart] [] 0 true text := by
  have hmark : ∀ ch ∈ (heading lines ++ text).head?, ch ≠ '\uFEFF' := by
    cases lines with
    | nil => exact fun ch hch => (htext ch hch).notMark
    | cons line lines =>
        have hcut : heading (line :: lines) ++ text = line ++ '\n' :: (heading lines ++ text) := by
          simp [heading]
        rw [hcut]
        exact (hlines line List.mem_cons_self).ne_mark
  rcases exists_length_heading lines with ⟨more, hmore⟩
  have hlength : (heading lines ++ text).length = text.length + more + lines.length := by
    rw [List.length_append, hmore]
    omega
  let start : Lexer := ofChars (heading lines ++ text)
  have hstart : start.cursor.rest = heading lines ++ text := rfl
  rcases exists_skipToToken_go_heading hlines rfl rfl rfl hstart (text.length + more) with
    ⟨cursor, hgo, hrest, hcolumn⟩
  let next : Lexer := { start with cursor }
  have hblanks : next.cursor.rest = List.replicate 0 ' ' ++ text := hrest
  have hself : skipToToken.go (text.length + more) next = next :=
    skipToToken_go_blanks hblanks htext (by rw [hblanks]; exact Nat.le_add_right _ _)
  have hskip : start.skipToToken = next := by
    rw [skipToToken_eq_go hmark, hstart, hlength, hgo]
    exact hself
  have hnone : next.candidates = [] := rfl
  have hfound : next.Found [.streamStart] [] := ⟨rfl, rfl, rfl, rfl, rfl⟩
  exact awaits_of_settled rfl ((congrArg dropStale hskip).trans (dropStale_of_nil hnone))
    ⟨hfound, hrest, hcolumn, rfl, hnone⟩

theorem advance_end (h : l.Awaits kinds [0] 0 true []) :
    ∃ l', l.advance = .ok l' ∧ l'.finished = true ∧
      l'.reversed.map Token.kind = .streamEnd :: .blockEnd :: kinds.reverse := by
  rcases h.stands (by simp) with ⟨s, hskip, hstands⟩
  generalize hs : s.unwind s.cursor.column = u at hstands
  let closed : Lexer := { u.pushHere .blockEnd with indent := -1, outer := [] }
  have hunwind : u.unwind (-1) = closed := by
    have hinside : (-1 : Int) < u.indent := by simp [hstands.found.indent_cons.1]
    simp only [unwind, hstands.found.depth, BEq.rfl, if_true, hstands.found.indent_cons.2,
      List.map_nil, List.nil_append, List.length_singleton, unwind.go, hinside, List.headD_cons,
      List.drop_one, List.tail_cons, closed]
  have hdrop : closed.dropCandidate = .ok closed := dropCandidate_of_nil hstands.candidates
  let ended : Lexer :=
    { closed.pushHere .streamEnd with keyAllowed := false, candidates := [], finished := true }
  refine ⟨ended.release, ?_, rfl, ?_⟩
  · rw [advance, hskip]
    simp only [bind, Except.bind, hs, hstands.rest, finish, hunwind, hdrop]
    rfl
  · simp [Lexer.release, pushHere, Lexer.push, closed, ended, hstands.found.tokens]

theorem run_of_finished (h : l.finished = true) (bound : Nat) :
    run bound l = ⟨l.reversed.reverse, none⟩ := by
  cases bound with
  | zero => rfl
  | succ bound => rw [run, if_pos h]

end Lexer

/-- The tokens of a document of entries, below lines of comments. -/
theorem tokens_written {noted : Bool} {entries : List (String × Value)} {lines : List (List Char)}
    {text : List Char} (h : EntriesWritten noted 0 entries text)
    (hlines : ∀ line ∈ lines, Lexer.IsSkipped line)
    (hfits : EachEntryPart KeyFits (fun _ => True) entries) :
    (tokens (Lexer.heading lines ++ (text ++ ['\n']))).fault = none ∧
      (tokens (Lexer.heading lines ++ (text ++ ['\n']))).tokens.map Token.kind =
        .streamStart :: .blockMappingStart :: (entryKinds entries ++ [.blockEnd, .streamEnd]) := by
  have hcut : text ++ ['\n'] = text ++ (newLine 0 ++ []) := rfl
  have hhead : ∀ ch ∈ (text ++ ['\n']).head?, IsTokenStart ch := isTokenStart_of_entriesWritten h
  have hstart := Lexer.awaits_ofChars hlines hhead
  rw [hcut] at hstart ⊢
  rcases Lexer.goesEntries noted entries hfits hstart nofun h (Nat.le_refl 0) nofun with
    ⟨l, steps, hgoes, hsteps, hawaits⟩
  rcases Lexer.advance_end hawaits with ⟨ended, hend, hfinished, hkinds⟩
  have hall := hgoes.trans (Lexer.goes_of_advance hawaits.unfinished hend)
  have hbound : 1 + steps ≤ (Lexer.heading lines ++ (text ++ (newLine 0 ++ []))).length + 2 := by
    simp only [List.length_append]
    omega
  rcases Nat.exists_eq_add_of_le hbound with ⟨bound, hbound⟩
  have hrun : tokens (Lexer.heading lines ++ (text ++ (newLine 0 ++ []))) =
      ⟨ended.reversed.reverse, none⟩ := by
    rw [tokens, hbound, Nat.add_comm _ bound, hall bound, Lexer.run_of_finished hfinished]
  rw [hrun]
  refine ⟨rfl, ?_⟩
  rw [List.map_reverse, hkinds]
  simp [Lexer.opening]

end Yaml
end Roster
