import Roster.Proofs.Yaml.Scanning

/-!
# Documents without tags

The lexer finds a tag only behind an exclamation mark.  A document without tags, and without an
escape that is too great, gives its data or a fault that belongs to the document.
-/

namespace Roster
namespace Yaml

open Steps

/-!
## Tokens and what is left
-/

namespace Lexer

variable {cs : List Char} {l : Lexer}

/-- The lexer is within a text: what is left is a part of it, and so is the exclamation mark of any
tag so far. -/
structure IsWithin (cs : List Char) (l : Lexer) : Prop where
  rest : l.cursor.rest <:+: cs
  tags : ∀ token ∈ l.reversed, token.kind.isTag → '!' ∈ cs

/-- A step from within a text stays there, or refuses something in it. -/
def Stays (cs : List Char) (x : Except Fault Lexer) : Prop :=
  Meets (Fault.IsSpoken cs) (IsWithin cs) x

theorem stays_ite {p : Prop} [Decidable p] {x y : Except Fault Lexer} (hx : p → Stays cs x)
    (hy : Stays cs y) : Stays cs (if p then x else y) := by
  split
  · rename_i hp
    exact hx hp
  · exact hy

theorem IsWithin.goes {α : Type} {x : Except Fault (α × Cursor)} (h : l.IsWithin cs)
    (hx : l.cursor.Goes x) : Meets (Fault.IsSpoken cs) (fun found => found.2.rest <:+: cs) x :=
  (Fault.IsSpoken.within hx h.rest).mono fun _ hfound => hfound.isInfix.trans h.rest

theorem IsWithin.push (h : l.IsWithin cs) (token : Token) (htag : token.kind.isTag → '!' ∈ cs) :
    (l.push token).IsWithin cs :=
  ⟨h.rest, List.forall_mem_cons.mpr ⟨htag, h.tags⟩⟩

theorem IsWithin.pushHere (h : l.IsWithin cs) (kind : TokenKind) (hkind : ¬kind.isTag) :
    (l.pushHere kind).IsWithin cs :=
  h.push _ fun htag => absurd htag hkind

theorem IsWithin.indicator (h : l.IsWithin cs) (kind : TokenKind) (hkind : ¬kind.isTag)
    (length : Nat) : (l.indicator kind length).IsWithin cs :=
  ⟨(Cursor.isBehind_forward l.cursor length).isInfix.trans h.rest,
    (h.push _ fun htag => absurd htag hkind).tags⟩

theorem IsWithin.insert (h : l.IsWithin cs) (number : Nat) (token : Token)
    (htoken : ¬token.kind.isTag) : (l.insert number token).IsWithin cs := by
  refine ⟨h.rest, fun other hother htag => ?_⟩
  rcases List.mem_append.mp hother with hbefore | hbehind
  · exact h.tags other (List.mem_of_mem_take hbefore) htag
  · rcases List.mem_cons.mp hbehind with rfl | hbehind
    · exact absurd htag htoken
    · exact h.tags other (List.mem_of_mem_drop hbehind) htag

theorem stays_missingColon (key : KeyCandidate) : Stays cs (l.missingColon key) :=
  Or.inl rfl

theorem IsWithin.dropCandidate (h : l.IsWithin cs) : Stays cs l.dropCandidate := by
  unfold Lexer.dropCandidate
  split
  · split
    · exact stays_missingColon _
    · exact ⟨h.rest, h.tags⟩
  · exact h

theorem IsWithin.addCandidate (h : l.IsWithin cs) : Stays cs l.addCandidate := by
  unfold Lexer.addCandidate
  split
  · exact h.dropCandidate.bind fun next hnext => ⟨hnext.rest, hnext.tags⟩
  · exact h

theorem IsWithin.dropStale (h : l.IsWithin cs) : Stays cs l.dropStale := by
  unfold Lexer.dropStale
  split
  · exact stays_missingColon _
  · exact ⟨h.rest, h.tags⟩

theorem IsWithin.unwind_go (bound : Nat) (column : Int) {l : Lexer} (h : l.IsWithin cs) :
    (unwind.go column bound l).IsWithin cs := by
  induction bound generalizing l with
  | zero => exact h
  | succ bound ih =>
      rw [unwind.go]
      split
      · have hpushed := h.pushHere .blockEnd Bool.false_ne_true
        exact ih ⟨hpushed.rest, hpushed.tags⟩
      · exact h

theorem IsWithin.unwind (h : l.IsWithin cs) (column : Int) : (l.unwind column).IsWithin cs := by
  unfold Lexer.unwind
  split
  · exact h.unwind_go _ column
  · exact h

theorem IsWithin.addIndent (h : l.IsWithin cs) (column : Nat) :
    (l.addIndent column).2.IsWithin cs := by
  unfold Lexer.addIndent
  split
  · exact ⟨h.rest, h.tags⟩
  · exact h

theorem IsWithin.skipToToken_go (bound : Nat) {l : Lexer} (h : l.IsWithin cs) :
    (skipToToken.go bound l).IsWithin cs := by
  induction bound generalizing l with
  | zero => exact h
  | succ bound ih =>
      have hcomment := l.cursor.isBehind_skipComment
      rw [skipToToken.go]
      split
      · rename_i hbreak
        have hnext := (Cursor.isBehind_lineBreak? hbreak).trans hcomment
        exact ih ⟨hnext.isInfix.trans h.rest, h.tags⟩
      · exact ⟨hcomment.isInfix.trans h.rest, h.tags⟩

theorem IsWithin.skipToToken (h : l.IsWithin cs) : l.skipToToken.IsWithin cs := by
  unfold Lexer.skipToToken
  refine IsWithin.skipToToken_go _ ⟨?_, h.tags⟩
  split
  · exact (Cursor.isBehind_step l.cursor).isInfix.trans h.rest
  · exact h.rest

/-!
## Tokens one by one
-/

theorem IsWithin.finish (h : l.IsWithin cs) : Stays cs l.finish := by
  refine (h.unwind (-1)).dropCandidate.bind fun next hnext => ?_
  have hpushed := hnext.pushHere .streamEnd Bool.false_ne_true
  exact ⟨hpushed.rest, hpushed.tags⟩

theorem IsWithin.takeDirective (h : l.IsWithin cs) : Stays cs l.takeDirective := by
  refine (h.unwind (-1)).dropCandidate.bind fun next hnext => ?_
  refine (Fault.IsSpoken.within (Tag.meets_directive next.cursor) hnext.rest).bind
    fun found hfound => ?_
  exact ⟨hfound.1.isInfix.trans hnext.rest, (hnext.push _ fun htag => absurd htag hfound.2).tags⟩

theorem IsWithin.takeDocumentLine (h : l.IsWithin cs) {kind : TokenKind} (hkind : ¬kind.isTag) :
    Stays cs (l.takeDocumentLine kind) := by
  refine (h.unwind (-1)).dropCandidate.bind fun next hnext => ?_
  have hbehind := hnext.indicator kind hkind 3
  exact ⟨hbehind.rest, hbehind.tags⟩

theorem IsWithin.openBracket (h : l.IsWithin cs) {kind : TokenKind} (hkind : ¬kind.isTag) :
    Stays cs (l.openBracket kind) := by
  refine h.addCandidate.bind fun next hnext => ?_
  have hbehind := hnext.indicator kind hkind 1
  exact ⟨hbehind.rest, hbehind.tags⟩

theorem IsWithin.closeBracket (h : l.IsWithin cs) {kind : TokenKind} (hkind : ¬kind.isTag) :
    Stays cs (l.closeBracket kind) := by
  refine h.dropCandidate.bind fun next hnext => ?_
  have hbehind := hnext.indicator kind hkind 1
  exact ⟨hbehind.rest, hbehind.tags⟩

theorem IsWithin.takeFlowEntry (h : l.IsWithin cs) : Stays cs l.takeFlowEntry := by
  refine h.dropCandidate.bind fun next hnext => ?_
  have hbehind := hnext.indicator .flowEntry Bool.false_ne_true 1
  exact ⟨hbehind.rest, hbehind.tags⟩

theorem IsWithin.openCollection (h : l.IsWithin cs) (kind : TokenKind) (hkind : ¬kind.isTag)
    (problem : Problem) : Stays cs (l.openCollection kind problem) := by
  unfold Lexer.openCollection
  split
  · exact h
  · split
    · exact Or.inl rfl
    · have hindent := h.addIndent l.cursor.column
      generalize l.addIndent l.cursor.column = result at hindent ⊢
      rcases result with ⟨isNew, next⟩
      cases isNew with
      | true => exact hindent.pushHere kind hkind
      | false => exact hindent

theorem IsWithin.takeBlockEntry (h : l.IsWithin cs) : Stays cs l.takeBlockEntry := by
  refine (h.openCollection .blockSequenceStart Bool.false_ne_true _).bind
    fun opened hopened => ?_
  refine hopened.dropCandidate.bind fun next hnext => ?_
  have hbehind := hnext.indicator .blockEntry Bool.false_ne_true 1
  exact ⟨hbehind.rest, hbehind.tags⟩

theorem IsWithin.takeKey (h : l.IsWithin cs) : Stays cs l.takeKey := by
  refine (h.openCollection .blockMappingStart Bool.false_ne_true _).bind
    fun opened hopened => ?_
  refine hopened.dropCandidate.bind fun next hnext => ?_
  have hbehind := hnext.indicator .key Bool.false_ne_true 1
  exact ⟨hbehind.rest, hbehind.tags⟩

theorem IsWithin.confirmKey (h : l.IsWithin cs) (key : KeyCandidate) :
    (l.confirmKey key).IsWithin cs := by
  unfold Lexer.confirmKey
  have hdropped : IsWithin cs { l with candidates := l.candidates.filter (·.1 != l.depth) } :=
    ⟨h.rest, h.tags⟩
  have hkey := hdropped.insert key.token ⟨.key, key.mark, key.mark⟩
    Bool.false_ne_true
  dsimp only at hkey ⊢
  generalize Lexer.insert _ key.token ⟨.key, key.mark, key.mark⟩ = inserted at hkey ⊢
  have hindent : (if inserted.depth == 0 then inserted.addIndent key.mark.column
      else (false, inserted)).2.IsWithin cs := by
    split
    · exact hkey.addIndent _
    · exact hkey
  generalize (if inserted.depth == 0 then inserted.addIndent key.mark.column
    else (false, inserted)) = result at hindent ⊢
  rcases result with ⟨isNew, opened⟩
  have hopened : (if isNew then opened.insert key.token ⟨.blockMappingStart, key.mark, key.mark⟩
      else opened).IsWithin cs := by
    split
    · exact hindent.insert _ _ Bool.false_ne_true
    · exact hindent
  have hbehind := hopened.indicator .value Bool.false_ne_true 1
  exact ⟨hbehind.rest, hbehind.tags⟩

theorem IsWithin.takeValue (h : l.IsWithin cs) : Stays cs l.takeValue := by
  unfold Lexer.takeValue
  split
  · exact h.confirmKey _
  · refine (h.openCollection .blockMappingStart Bool.false_ne_true _).bind
      fun next hnext => ?_
    have hbehind := hnext.indicator .value Bool.false_ne_true 1
    exact ⟨hbehind.rest, hbehind.tags⟩

theorem IsWithin.takeWith {α : Type} {read : Cursor → Except Fault (α × Cursor)}
    {kind : α → TokenKind} (h : l.IsWithin cs) (hread : ∀ c : Cursor, c.Goes (read c))
    (hkind : ∀ v, (kind v).isTag → '!' ∈ cs) : Stays cs (l.takeWith read kind) := by
  refine h.addCandidate.bind fun next hnext => ?_
  refine (hnext.goes (hread next.cursor)).bind fun found hfound => ?_
  exact ⟨hfound, (hnext.push ⟨kind found.1, next.cursor.mark, found.2.mark⟩ (hkind found.1)).tags⟩

theorem IsWithin.takeBlock (h : l.IsWithin cs) (folded : Bool) : Stays cs (l.takeBlock folded) := by
  refine h.dropCandidate.bind fun next hnext => ?_
  refine (hnext.goes (Scalar.goes_block folded next.indent next.cursor)).bind fun found hfound => ?_
  exact ⟨hfound, (hnext.push ⟨.scalar false found.1, next.cursor.mark, found.2.mark⟩ nofun).tags⟩

theorem IsWithin.takePlain (h : l.IsWithin cs) : Stays cs l.takePlain := by
  refine h.addCandidate.bind fun next hnext => ?_
  have hplain := Scalar.isBehind_plain (next.depth != 0) (next.indent + 1) next.cursor
  exact ⟨hplain.isInfix.trans hnext.rest, (hnext.push ⟨.scalar true _, _, _⟩ nofun).tags⟩

theorem IsWithin.takeToken (h : l.IsWithin cs) {c : Char} {rest : List Char}
    (hrest : l.cursor.rest = c :: rest) : Stays cs (l.takeToken c rest) := by
  unfold Lexer.takeToken
  dsimp only
  refine stays_ite (fun _ => h.takeDirective) ?_
  refine stays_ite (fun _ => h.takeDocumentLine Bool.false_ne_true) ?_
  refine stays_ite (fun _ => h.takeDocumentLine Bool.false_ne_true) ?_
  refine stays_ite (fun _ => h.openBracket Bool.false_ne_true) ?_
  refine stays_ite (fun _ => h.openBracket Bool.false_ne_true) ?_
  refine stays_ite (fun _ => h.closeBracket Bool.false_ne_true) ?_
  refine stays_ite (fun _ => h.closeBracket Bool.false_ne_true) ?_
  refine stays_ite (fun _ => h.takeFlowEntry) ?_
  refine stays_ite (fun _ => h.takeBlockEntry) ?_
  refine stays_ite (fun _ => h.takeKey) ?_
  refine stays_ite (fun _ => h.takeValue) ?_
  refine stays_ite (fun _ => h.takeWith (Tag.goes_name .alias_) fun _ => nofun) ?_
  refine stays_ite (fun _ => h.takeWith (Tag.goes_name .anchor) fun _ => nofun) ?_
  -- Only here does a token become a tag, and its exclamation mark is in front of the cursor.
  refine stays_ite (fun hmark => h.takeWith Tag.goes_tag fun _ _ => h.rest.subset ?_) ?_
  · rw [hrest, ← eq_of_beq hmark]
    exact List.mem_cons_self
  refine stays_ite (fun _ => h.takeBlock false) ?_
  refine stays_ite (fun _ => h.takeBlock true) ?_
  refine stays_ite (fun _ => h.takeWith (Scalar.goes_quoted false)
    fun _ => nofun) ?_
  refine stays_ite (fun _ => h.takeWith (Scalar.goes_quoted true)
    fun _ => nofun) ?_
  exact stays_ite (fun _ => h.takePlain) (Or.inl rfl)

theorem IsWithin.release (h : l.IsWithin cs) : l.release.IsWithin cs :=
  ⟨h.rest, h.tags⟩

theorem IsWithin.advance (h : l.IsWithin cs) : Stays cs l.advance := by
  unfold Lexer.advance
  refine h.skipToToken.dropStale.bind fun next hnext => ?_
  have hunwound := hnext.unwind next.cursor.column
  generalize next.unwind next.cursor.column = unwound at hunwound ⊢
  dsimp only
  split
  · exact hunwound.finish.bind fun last hlast => hlast.release
  · rename_i hrest
    refine (hunwound.takeToken hrest).bind fun taken htaken => ?_
    exact htaken.dropStale.bind fun last hlast => hlast.release

theorem IsWithin.run (bound : Nat) {l : Lexer} (h : l.IsWithin cs) :
    (∀ token ∈ (Lexer.run bound l).tokens, token.kind.isTag → '!' ∈ cs) ∧
      ∀ fault, (Lexer.run bound l).fault = some fault → fault.IsSpoken cs := by
  have hall : ∀ token ∈ l.reversed.reverse, token.kind.isTag → '!' ∈ cs :=
    fun token htoken => h.tags token (List.mem_reverse.mp htoken)
  induction bound generalizing l with
  | zero => exact ⟨hall, fun _ hnone => nomatch hnone⟩
  | succ bound ih =>
      have hadvance := h.advance
      rw [Lexer.run]
      split
      · exact ⟨hall, fun _ hnone => nomatch hnone⟩
      · split
        · rename_i next hnext
          rw [hnext] at hadvance
          exact ih hadvance fun token htoken => hadvance.tags token (List.mem_reverse.mp htoken)
        · rename_i fault hfault
          rw [hfault] at hadvance
          exact ⟨fun token htoken => hall token (List.mem_of_mem_take htoken),
            fun _ hsame => Option.some.inj hsame ▸ hadvance⟩

theorem isWithin_ofChars (cs : List Char) : (ofChars cs).IsWithin cs :=
  ⟨List.infix_rfl, List.forall_mem_singleton.mpr nofun⟩

end Lexer

/-!
## Documents
-/

/-- A document that is free of what its reader stumbles over: it has no tags, and no escape that is
too great. -/
structure IsTame (cs : List Char) : Prop where
  tagless : ∀ token ∈ (tokens cs).tokens, ¬token.kind.isTag
  small : ¬HasHugeEscape cs

theorem not_hasHugeEscape_of_not_mem {cs : List Char} (h : '\\' ∉ cs) : ¬HasHugeEscape cs :=
  fun ⟨_, _, hwithin, _⟩ => h (hwithin.subset List.mem_cons_self)

theorem isTame_of_not_mem {cs : List Char} (htag : '!' ∉ cs) (hescape : '\\' ∉ cs) : IsTame cs where
  tagless token htoken hkind :=
    htag (((Lexer.isWithin_ofChars cs).run _).1 token htoken hkind)
  small := not_hasHugeEscape_of_not_mem hescape

namespace IsTame

variable {cs : List Char}

theorem reads_ofChars (h : IsTame cs) :
    Reads (fun root : Option Node => ∀ node ∈ root, node.IsUntagged) (Node.ofChars cs) := by
  have hfault : ∀ fault, (tokens cs).fault = some fault → fault.isReported = true :=
    fun fault hsome => (((Lexer.isWithin_ofChars cs).run _).2 fault hsome).resolve_right h.small
  exact (Builder.keeps_onlyDocument ⟨(tokens cs).tokens, (tokens cs).fault, [], []⟩
    ⟨h.tagless, hfault, List.forall_mem_nil _⟩).map fun result hresult => hresult.2

theorem reads_dataOf (h : IsTame cs) : Reads (fun _ => True) (dataOf cs) := by
  unfold dataOf
  dsimp only
  split
  · exact rfl
  · refine h.reads_ofChars.bind fun root hroot => ?_
    cases root with
    | none => exact trivial
    | some node => exact (hroot node rfl).reads_data.bind fun _ _ => trivial

end IsTame

theorem textsOf_eq_some_iff {d : Option Datum} {texts : List (String × String)} :
    textsOf d = .ok (some texts) ↔
      ∃ anchor entries, d = some (.map anchor entries) ∧
        (Datum.map anchor entries).isWritable = true ∧
        texts = Entries.setAll [] (entries.map fun (k, v) =>
          (k.text (.map anchor entries), match v with
            | .scalar .null => ""
            | v => v.text (.map anchor entries))) := by
  unfold textsOf
  split
  · rename_i anchor entries
    dsimp only
    split
    · rename_i hwritable
      rw [Except.ok.injEq, Option.some.injEq]
      constructor
      · rintro rfl
        exact ⟨anchor, entries, rfl, hwritable, rfl⟩
      · rintro ⟨anchor', entries', hsame, -, htexts⟩
        cases hsame
        exact htexts.symm
    · rename_i hlong
      constructor
      · exact fun h => nomatch h
      · rintro ⟨anchor', entries', hsame, hwritable, -⟩
        cases hsame
        exact absurd hwritable hlong
  · rename_i hother
    constructor
    · exact fun h => nomatch h
    · rintro ⟨anchor, entries, rfl, -⟩
      exact absurd rfl (hother anchor entries)

theorem reads_textsOf (d : Option Datum) : Reads (fun _ => True) (textsOf d) := by
  unfold textsOf
  split
  · dsimp only
    split
    · exact trivial
    · exact rfl
  · exact trivial

/-- The octets of a file hold a tame document, if they hold a text at all. -/
def IsTameFile (octets : ByteArray) : Prop :=
  ∀ text, Text.decodeUtf8 octets = .ok text → IsTame (Text.unifyLineEnds text.toList)

/-- Whatever is wrong with a tame document belongs to the document. -/
theorem IsTameFile.reads {octets : ByteArray} (h : IsTameFile octets) :
    Reads (fun _ => True) (readTexts octets) := by
  unfold readTexts
  cases hdecode : Text.decodeUtf8 octets with
  | error fault => exact rfl
  | ok text => exact (h text hdecode).reads_dataOf.bind fun d _ => reads_textsOf d

end Yaml
end Roster
