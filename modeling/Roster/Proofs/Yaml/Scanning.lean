import Roster.Proofs.Yaml.Building
import Roster.Proofs.Yaml.Cursor

/-!
# Splitting any document into tokens

The lexer goes forward over a document.  Whatever it refuses it refuses with a fault that belongs to
the document, apart from an escape for a character with a number that is too great even to be
compared.  The readers of single tokens come first.
-/

namespace Roster
namespace Yaml

open Steps

/-- An escape of eight digits starts with a digit of eight or more. -/
def HasHugeEscape (cs : List Char) : Prop :=
  ∃ d v, ['\\', 'U', d] <:+: cs ∧ Scalar.hexValue? d = some v ∧ 8 ≤ v

theorem HasHugeEscape.mono {cs cs' : List Char} (h : HasHugeEscape cs) (hsub : cs <:+: cs') :
    HasHugeEscape cs' := by
  rcases h with ⟨d, v, hwithin, hvalue⟩
  exact ⟨d, v, hwithin.trans hsub, hvalue⟩

/-- The fault belongs to the document, or there is an escape that is too great. -/
def Fault.IsSpoken (cs : List Char) (fault : Fault) : Prop :=
  fault.isReported = true ∨ HasHugeEscape cs

theorem Fault.IsSpoken.within {α : Type} {Q : α → Prop} {cs cs' : List Char} {x : Except Fault α}
    (hx : Meets (Fault.IsSpoken cs) Q x) (h : cs <:+: cs') : Meets (Fault.IsSpoken cs') Q x := by
  cases x with
  | ok a => exact hx
  | error fault => exact hx.imp id fun hhuge => hhuge.mono h

/-!
## Going forward
-/

namespace Cursor

variable {α β : Type} {c c' c'' : Cursor}

/-- What is left at a cursor is left at an earlier one as well. -/
def IsBehind (c' c : Cursor) : Prop := c'.rest <:+ c.rest

theorem IsBehind.refl (c : Cursor) : c.IsBehind c := List.suffix_rfl

theorem IsBehind.trans (h : c''.IsBehind c') (h' : c'.IsBehind c) : c''.IsBehind c :=
  List.IsSuffix.trans h h'

theorem isBehind_forward (c : Cursor) (n : Nat) : (c.forward n).IsBehind c := by
  rw [IsBehind, rest_forward]
  exact List.drop_suffix n c.rest

theorem isBehind_step (c : Cursor) : c.step.IsBehind c := by
  rw [IsBehind, rest_step]
  exact List.drop_suffix 1 c.rest

theorem isBehind_takeWhile (test : Char → Bool) (c : Cursor) :
    (c.takeWhile test).2.IsBehind c :=
  isBehind_forward c _

theorem isBehind_skipWhile (test : Char → Bool) (c : Cursor) : (c.skipWhile test).IsBehind c :=
  isBehind_takeWhile test c

theorem isBehind_lineBreak? {ch : Char} (h : c.lineBreak? = some (ch, c')) : c'.IsBehind c := by
  unfold lineBreak? at h
  split at h
  · split at h
    · cases h
      exact isBehind_step c
    · split at h
      · cases h
        exact isBehind_step c
      · cases h
  · cases h

theorem isBehind_skipBreak (c : Cursor) : c.skipBreak.IsBehind c := by
  unfold skipBreak
  cases hbreak : c.lineBreak? with
  | none => exact .refl c
  | some found => exact isBehind_lineBreak? hbreak

theorem isBehind_skipComment (c : Cursor) : c.skipComment.IsBehind c := by
  unfold skipComment
  dsimp only
  split
  · exact (isBehind_skipWhile isInLine _).trans (isBehind_skipWhile isSpace c)
  · exact isBehind_skipWhile isSpace c

/-- A reader goes forward from a cursor, or refuses what it finds there. -/
def Goes (c : Cursor) (x : Except Fault (α × Cursor)) : Prop :=
  Meets (Fault.IsSpoken c.rest) (fun found => found.2.IsBehind c) x

theorem Goes.of_isBehind {x : Except Fault (α × Cursor)} (hx : c'.Goes x) (h : c'.IsBehind c) :
    c.Goes x :=
  (Fault.IsSpoken.within hx h.isInfix).mono fun _ hfound => IsBehind.trans hfound h

theorem Goes.bind {x : Except Fault (α × Cursor)} {f : α × Cursor → Except Fault (β × Cursor)}
    (hx : c.Goes x) (hf : ∀ found : α × Cursor, found.2.Goes (f found)) : c.Goes (x >>= f) :=
  Meets.bind hx fun found hfound => (hf found).of_isBehind hfound

theorem goes_ok {a : α} (h : c'.IsBehind c) : c.Goes (.ok (a, c')) := h

theorem goes_refuse (context : Context) (start : Mark) (problem : Problem) :
    c.Goes (c'.refuse context start problem : Except Fault (α × Cursor)) :=
  Or.inl rfl

theorem goes_unexpected (context : Context) (start : Mark) (what : String) :
    c.Goes (c'.unexpected context start what : Except Fault (α × Cursor)) :=
  Or.inl rfl

end Cursor

/-!
## Scalars between quotes
-/

namespace Scalar

open Cursor

theorem hexValue?_lt {d : Char} {v : Nat} (h : hexValue? d = some v) : v < 16 := by
  unfold hexValue? at h
  split at h
  · rename_i hdigit
    rw [Char.isDigit, Bool.and_eq_true, decide_eq_true_eq, decide_eq_true_eq] at hdigit
    have hle : d.toNat ≤ 57 := UInt32.le_iff_toNat_le.mp hdigit.2
    cases h
    omega
  · split at h
    · rename_i hlower
      rw [Bool.and_eq_true, decide_eq_true_eq, decide_eq_true_eq] at hlower
      have hle : d.toNat ≤ 102 := UInt32.le_iff_toNat_le.mp hlower.2
      cases h
      omega
    · split at h
      · rename_i hupper
        rw [Bool.and_eq_true, decide_eq_true_eq, decide_eq_true_eq] at hupper
        have hle : d.toNat ≤ 70 := UInt32.le_iff_toNat_le.mp hupper.2
        cases h
        omega
      · cases h

theorem foldl_hexValue_lt (digits : List Char) (n : Nat) :
    digits.foldl (fun n c => 16 * n + (hexValue? c).getD 0) n < (n + 1) * 16 ^ digits.length := by
  induction digits generalizing n with
  | nil => simp
  | cons d rest ih =>
      have hdigit : (hexValue? d).getD 0 < 16 := by
        cases hvalue : hexValue? d with
        | none => exact Nat.zero_lt_succ 15
        | some v => exact hexValue?_lt hvalue
      rw [List.foldl_cons, List.length_cons]
      calc
        _ < (16 * n + (hexValue? d).getD 0 + 1) * 16 ^ rest.length := ih _
        _ ≤ (16 * n + 16) * 16 ^ rest.length := Nat.mul_le_mul_right _ (by omega)
        _ = (n + 1) * 16 ^ (rest.length + 1) := by
            rw [Nat.pow_succ', ← Nat.mul_assoc, show (n + 1) * 16 = 16 * n + 16 by omega]

theorem hexNumber_lt (digits : List Char) : hexNumber digits < 16 ^ digits.length := by
  have hfold := foldl_hexValue_lt digits 0
  rwa [Nat.zero_add, Nat.one_mul] at hfold

/-- A number of eight digits that is too great has a great first digit. -/
theorem exists_of_hexNumber_ge {digits : List Char} (hhex : ∀ d ∈ digits, (hexValue? d).isSome = true)
    (hlength : digits.length = 8) (hgreat : 0x80000000 ≤ hexNumber digits) :
    ∃ d rest v, digits = d :: rest ∧ hexValue? d = some v ∧ 8 ≤ v := by
  cases digits with
  | nil => cases hlength
  | cons d rest =>
      rcases Option.isSome_iff_exists.mp (hhex d List.mem_cons_self) with ⟨v, hv⟩
      refine ⟨d, rest, v, rfl, hv, ?_⟩
      have hrest : rest.length = 7 := Nat.succ.inj hlength
      have hfold := foldl_hexValue_lt rest v
      rw [hexNumber, List.foldl_cons, hv, Option.getD_some, Nat.mul_zero, Nat.zero_add] at hgreat
      rw [hrest] at hfold
      omega

/-- An escape of four digits is never too great, and one of eight only with a great first one. -/
theorem meets_codeEscape (start : Mark) {count : Nat} {c : Cursor} {cs : List Char}
    (hcount : count ≤ 4 ∨ count = 8 ∧ '\\' :: 'U' :: c.rest <:+: cs) :
    Meets (Fault.IsSpoken cs) (fun found => found.2.IsBehind c) (codeEscape start count c) := by
  unfold codeEscape
  dsimp only
  split
  · exact Or.inl rfl
  · rename_i hlong
    have htaken := (List.takeWhile_prefix (p := fun d => (hexValue? d).isSome)
      (l := c.rest.take count)).trans (List.take_prefix count c.rest)
    have hhex : ∀ d ∈ (c.rest.take count).takeWhile fun d => (hexValue? d).isSome,
        (hexValue? d).isSome = true :=
      fun d hd => List.mem_takeWhile_imp (p := fun d => (hexValue? d).isSome) hd
    have hle := ((List.takeWhile_prefix (p := fun d => (hexValue? d).isSome)
      (l := c.rest.take count)).length_le).trans (List.length_take_le count c.rest)
    generalize (c.rest.take count).takeWhile (fun d => (hexValue? d).isSome) = digits at *
    refine Meets.bind (Q := fun _ => True) ?_ fun ch _ => isBehind_forward c count
    unfold charOfCode
    split
    · exact trivial
    · split
      · exact Or.inl rfl
      · rename_i hgreat
        -- Four digits stay below the bound, so the escape has eight.
        rcases hcount with hsmall | ⟨rfl, hthere⟩
        · have hlt := hexNumber_lt digits
          have hpow : 16 ^ digits.length ≤ 16 ^ 4 := Nat.pow_le_pow_right (by decide) (by omega)
          omega
        · rcases exists_of_hexNumber_ge hhex (by omega) (Nat.le_of_not_lt hgreat) with
            ⟨d, rest, v, rfl, hv, hdigit⟩
          refine Or.inr ⟨d, v, List.IsInfix.trans ?_ hthere, hv, hdigit⟩
          rcases htaken with ⟨tail, htail⟩
          exact ⟨[], rest ++ tail, by rw [← htail]; rfl⟩

theorem goes_quotedBreaks (start : Mark) (bound : Nat) (reversed : List Char) (c : Cursor) :
    c.Goes (quotedBreaks start bound reversed c) := by
  induction bound generalizing reversed c with
  | zero => exact .refl c
  | succ bound ih =>
      rw [quotedBreaks]
      split
      · exact goes_refuse _ _ _
      · dsimp only
        split
        · rename_i hbreak
          exact (ih _ _).of_isBehind ((isBehind_lineBreak? hbreak).trans (isBehind_skipWhile _ c))
        · exact goes_ok (isBehind_skipWhile _ c)

theorem goes_quotedSpaces (start : Mark) (c : Cursor) : c.Goes (quotedSpaces start c) := by
  unfold quotedSpaces
  dsimp only
  have hbehind := isBehind_takeWhile Cursor.isGap c
  generalize (c.takeWhile Cursor.isGap).2 = c' at *
  split
  · exact goes_refuse _ _ _
  · split
    · rename_i hbreak
      refine Goes.of_isBehind ?_ ((isBehind_lineBreak? hbreak).trans hbehind)
      exact (goes_quotedBreaks start _ [] _).bind fun found => .refl found.2
    · exact goes_ok hbehind

theorem rest_of_peek {c : Cursor} {ch : Char} (h : c.peek = ch) (hch : ch ≠ '\x00') :
    c.rest = ch :: c.step.rest := by
  rw [rest_step]
  unfold peek at h
  cases hrest : c.rest with
  | nil =>
      rw [hrest] at h
      exact absurd h.symm hch
  | cons first rest =>
      rw [hrest] at h
      exact congrArg (· :: rest) h

theorem meets_quotedEscape (start : Mark) {c : Cursor} {cs : List Char}
    (hthere : '\\' :: c.rest <:+: cs) :
    Meets (Fault.IsSpoken cs) (fun found => found.2.IsBehind c) (quotedEscape start c) := by
  unfold quotedEscape
  split
  · exact isBehind_step c
  · rename_i count _ hcode
    have hcount : count ≤ 4 ∨ count = 8 ∧ '\\' :: 'U' :: c.step.rest <:+: cs := by
      unfold codeEscapes at hcode
      rw [List.lookup_cons] at hcode
      split at hcode
      · cases hcode
        exact Or.inl (by decide)
      · rw [List.lookup_cons] at hcode
        split at hcode
        · cases hcode
          exact Or.inl (by decide)
        · rw [List.lookup_cons] at hcode
          split at hcode
          · rename_i hpeek
            cases hcode
            exact Or.inr ⟨rfl, rest_of_peek (eq_of_beq hpeek) (by decide) ▸ hthere⟩
          · cases hcode
    exact (meets_codeEscape start hcount).bind fun found hfound =>
      hfound.trans (isBehind_step c)
  · rename_i hbreak
    refine Fault.IsSpoken.within ?_ ((List.infix_cons List.infix_rfl).trans hthere)
    exact (goes_quotedBreaks start _ [] _).of_isBehind (isBehind_lineBreak? hbreak)
  · exact Or.inl rfl

theorem goes_quotedFrom (double : Bool) (start : Mark) (bound : Nat) (reversed : List Char)
    (c : Cursor) : c.Goes (quotedFrom double start bound reversed c) := by
  induction bound generalizing reversed c with
  | zero => exact goes_refuse _ _ _
  | succ bound ih =>
      rw [quotedFrom]
      dsimp only
      generalize (if double then '"' else '\'') = quote
      split
      · exact goes_refuse _ _ _
      · rename_i ch rest hrest
        split
        · split
          · exact (ih _ _).of_isBehind (isBehind_forward c 2)
          · exact goes_ok (isBehind_step c)
        · split
          · rename_i hescape
            have hch : ch = '\\' := eq_of_beq (Bool.and_eq_true_iff.mp hescape).2
            have hthere : '\\' :: c.step.rest <:+: c.rest := by
              rw [rest_step, hrest, hch, List.drop_one, List.tail_cons]
            exact Goes.bind ((meets_quotedEscape start hthere).mono fun found hfound =>
              hfound.trans (isBehind_step c)) fun found => ih _ _
          · split
            · exact (goes_quotedSpaces start c).bind fun found => ih _ _
            · exact (ih _ _).of_isBehind (isBehind_step c)

theorem goes_quoted (double : Bool) (c : Cursor) : c.Goes (quoted double c) :=
  (goes_quotedFrom double c.mark _ [] c.step).of_isBehind (isBehind_step c)

/-!
## Scalars without quotes
-/

theorem isBehind_plainBreaks (bound : Nat) (reversed : List Char) (c : Cursor) :
    (plainBreaks bound reversed c).2.IsBehind c := by
  induction bound generalizing reversed c with
  | zero => exact .refl c
  | succ bound ih =>
      rw [plainBreaks]
      split
      · rename_i hbreak
        have hbehind := (isBehind_lineBreak? hbreak).trans (isBehind_skipWhile _ c)
        split
        · exact hbehind
        · exact (ih _ _).trans hbehind
      · exact isBehind_skipWhile _ c

theorem isBehind_plainGap (c : Cursor) : (plainGap c).cursor.IsBehind c := by
  unfold plainGap
  have hblanks := isBehind_takeWhile Cursor.isSpace c
  generalize c.takeWhile Cursor.isSpace = taken at hblanks ⊢
  rcases taken with ⟨blanks, behind⟩
  dsimp only
  cases hbreak : behind.lineBreak? with
  | none => exact hblanks
  | some found =>
      rcases found with ⟨first, next⟩
      have hbehind := (isBehind_lineBreak? hbreak).trans hblanks
      have hbreaks := isBehind_plainBreaks next.rest.length [] next
      dsimp only
      split
      · exact hbehind
      · generalize plainBreaks next.rest.length [] next = result at hbreaks ⊢
        rcases result with ⟨breaks, last⟩
        cases breaks with
        | none => exact hbreaks.trans hbehind
        | some breaks => exact hbreaks.trans hbehind

theorem isBehind_plainFrom (flow : Bool) (indent : Int) (bound : Nat) (reversed : List Char)
    (gap : Gap) (stop : Mark) :
    (plainFrom flow indent bound reversed gap stop).2.IsBehind gap.cursor := by
  induction bound generalizing reversed gap stop with
  | zero => exact .refl gap.cursor
  | succ bound ih =>
      rw [plainFrom]
      dsimp only
      generalize (if gap.cursor.peek == '#' then [] else plainWord flow gap.cursor.rest) = word
      have hbehind := (isBehind_plainGap (gap.cursor.forward word.length)).trans
        (isBehind_forward gap.cursor _)
      split
      · exact .refl gap.cursor
      · split
        · exact hbehind
        · exact (ih _ _ _).trans hbehind

theorem isBehind_plain (flow : Bool) (indent : Int) (c : Cursor) :
    (plain flow indent c).2.IsBehind c :=
  isBehind_plainFrom flow indent _ [] ⟨[], c, false⟩ c.mark

/-!
## Blocks of lines
-/

theorem isBehind_blockSign (c : Cursor) : (blockSign c).2.IsBehind c := by
  unfold blockSign
  split
  · exact isBehind_step c
  · split
    · exact isBehind_step c
    · exact .refl c

theorem goes_blockIndent (start : Mark) (c : Cursor) : c.Goes (blockIndent start c) := by
  unfold blockIndent
  split
  · split
    · exact goes_refuse _ _ _
    · exact goes_ok (isBehind_step c)
  · exact goes_ok (.refl c)

theorem goes_blockHeader (start : Mark) (c : Cursor) : c.Goes (blockHeader start c) := by
  unfold blockHeader
  have hsign := isBehind_blockSign c
  generalize blockSign c = sign at hsign ⊢
  rcases sign with ⟨before, behind⟩
  refine Goes.of_isBehind (Goes.bind (goes_blockIndent start behind) fun found => ?_) hsign
  rcases found with ⟨indent, middle⟩
  have hsecond : (if before.isNone && indent.isSome then blockSign middle
      else (none, middle)).2.IsBehind middle := by
    split
    · exact isBehind_blockSign middle
    · exact .refl middle
  dsimp only
  generalize (if before.isNone && indent.isSome then blockSign middle else (none, middle)) = second
    at hsecond ⊢
  rcases second with ⟨after, last⟩
  split
  · exact goes_ok hsecond
  · exact goes_unexpected _ _ _

theorem meets_blockHeaderEnd (start : Mark) (c : Cursor) :
    Meets (Fault.IsSpoken c.rest) (fun next => next.IsBehind c) (blockHeaderEnd start c) := by
  unfold blockHeaderEnd
  dsimp only
  split
  · exact (isBehind_skipBreak _).trans (isBehind_skipComment c)
  · exact Or.inl rfl

theorem isBehind_blockLead (bound : Nat) (reversed : List Char) (widest : Nat) (c : Cursor) :
    (blockLead bound reversed widest c).2.IsBehind c := by
  induction bound generalizing reversed widest c with
  | zero => exact .refl c
  | succ bound ih =>
      rw [blockLead]
      split
      · rename_i hbreak
        exact (ih _ _ _).trans (isBehind_lineBreak? hbreak)
      · split
        · exact (ih _ _ _).trans (isBehind_step c)
        · exact .refl c

theorem isBehind_blockBreaks (indent bound : Nat) (reversed : List Char) (c : Cursor) :
    (blockBreaks indent bound reversed c).2.IsBehind c := by
  induction bound generalizing reversed c with
  | zero => exact .refl c
  | succ bound ih =>
      rw [blockBreaks]
      have hindent : (skipIndent indent c).IsBehind c := isBehind_forward c _
      split
      · rename_i hbreak
        exact (ih _ _).trans ((isBehind_lineBreak? hbreak).trans hindent)
      · exact hindent

theorem isBehind_blockLines (folded : Bool) (chomping : Chomping) (indent bound : Nat)
    (reversed breaks : List Char) (last : Option Char) (c : Cursor) :
    (blockLines folded chomping indent bound reversed breaks last c).2.IsBehind c := by
  induction bound generalizing reversed breaks last c with
  | zero => exact .refl c
  | succ bound ih =>
      rw [blockLines]
      dsimp only
      split
      · have hline := isBehind_takeWhile Cursor.isInLine c
        generalize c.takeWhile Cursor.isInLine = taken at hline ⊢
        rcases taken with ⟨line, after⟩
        have hnext := (isBehind_blockBreaks indent after.rest.length [] after.skipBreak).trans
          ((isBehind_skipBreak after).trans hline)
        dsimp only
        generalize blockBreaks indent after.rest.length [] after.skipBreak = result at hnext ⊢
        rcases result with ⟨breaks, next⟩
        split
        · exact (ih _ _ _ _).trans hnext
        · exact hnext
      · exact .refl c

theorem goes_block (folded : Bool) (indent : Int) (c : Cursor) :
    c.Goes (block folded indent c) := by
  unfold block
  refine Goes.of_isBehind (Goes.bind (goes_blockHeader c.mark c.step) fun header => ?_)
    (isBehind_step c)
  rcases header with ⟨⟨chomping, written⟩, behind⟩
  refine Meets.bind (meets_blockHeaderEnd c.mark behind) fun first hfirst => ?_
  dsimp only
  cases written with
  | none =>
      have hlead := (isBehind_blockLead first.rest.length [] 0 first).trans hfirst
      generalize blockLead first.rest.length [] 0 first = lead at hlead ⊢
      rcases lead with ⟨⟨breaks, widest⟩, last⟩
      exact (isBehind_blockLines folded chomping _ _ [] breaks none last).trans hlead
  | some n =>
      dsimp only
      generalize (max 1 (indent + 1)).toNat + n - 1 = width
      have hbreaks := (isBehind_blockBreaks width first.rest.length [] first).trans hfirst
      generalize blockBreaks width first.rest.length [] first = result at hbreaks ⊢
      rcases result with ⟨breaks, last⟩
      exact (isBehind_blockLines folded chomping _ _ [] breaks none last).trans hbreaks

end Scalar

/-!
## Names, tags and directives
-/

namespace Tag

open Cursor

theorem goes_name (context : Context) (c : Cursor) : c.Goes (name context c) := by
  unfold name
  dsimp only
  split
  · exact goes_unexpected _ _ _
  · exact goes_ok ((isBehind_takeWhile isNameChar c.step).trans (isBehind_step c))

theorem goes_handle (context : Context) (start : Mark) (c : Cursor) :
    c.Goes (handle context start c) := by
  unfold handle
  split
  · exact goes_unexpected _ _ _
  · split
    · exact goes_ok (isBehind_step c)
    · dsimp only
      split
      · exact goes_unexpected _ _ _
      · exact goes_ok ((isBehind_step _).trans
          ((isBehind_takeWhile isNameChar c.step).trans (isBehind_step c)))

theorem goes_escapedOctets (context : Context) (start : Mark) (bound : Nat) (c : Cursor) :
    c.Goes (escapedOctets context start bound c) := by
  induction bound generalizing c with
  | zero => exact goes_ok (.refl c)
  | succ bound ih =>
      rw [escapedOctets]
      split
      · exact goes_ok (.refl c)
      · dsimp only
        split
        · exact goes_refuse _ _ _
        · refine Goes.of_isBehind (Goes.bind (ih _) fun found => ?_)
            ((isBehind_forward c.step 2).trans (isBehind_step c))
          exact goes_ok (.refl found.2)

theorem goes_textFrom (context missing : Context) (start : Mark) (bound : Nat)
    (reversed : List Char) (c : Cursor) :
    c.Goes (textFrom context missing start bound reversed c) := by
  induction bound generalizing reversed c with
  | zero => exact goes_ok (.refl c)
  | succ bound ih =>
      rw [textFrom]
      split
      · refine Goes.bind (goes_escapedOctets context start _ c) fun found => ?_
        dsimp only
        split
        · exact ih _ _
        · exact Or.inl rfl
      · split
        · exact (ih _ _).of_isBehind (isBehind_step c)
        · split
          · exact goes_unexpected _ _ _
          · exact goes_ok (.refl c)

theorem goes_text (context missing : Context) (start : Mark) (c : Cursor) :
    c.Goes (text context missing start c) :=
  goes_textFrom context missing start _ [] c

theorem goes_body (c : Cursor) : c.Goes (body c) := by
  unfold body
  dsimp only
  split
  · refine Goes.of_isBehind (Goes.bind (goes_text _ _ _ (c.forward 2)) fun found => ?_)
      (isBehind_forward c 2)
    split
    · exact goes_ok (isBehind_step found.2)
    · exact goes_unexpected _ _ _
  · split
    · exact goes_ok (isBehind_step c)
    · have hsuffix : ∀ found : String × Cursor, found.2.Goes
          (text .tag .tagText c.mark found.2 >>= fun suffix =>
            .ok ((⟨some found.1, suffix.1⟩ : WrittenTag), suffix.2)) :=
        fun found => (goes_text _ _ _ found.2).bind fun suffix => goes_ok (.refl suffix.2)
      split
      · exact (goes_handle .tag c.mark c).bind hsuffix
      · exact (hsuffix ("!", c.step)).of_isBehind (isBehind_step c)

theorem goes_tag (c : Cursor) : c.Goes (tag c) := by
  unfold tag
  refine (goes_body c).bind fun found => ?_
  dsimp only
  split
  · exact goes_ok (.refl found.2)
  · exact goes_unexpected _ _ _

theorem goes_versionNumber (start : Mark) (c : Cursor) : c.Goes (versionNumber start c) := by
  unfold versionNumber
  dsimp only
  split
  · exact goes_unexpected _ _ _
  · exact goes_ok (isBehind_takeWhile Char.isDigit c)

theorem meets_version (start : Mark) (c : Cursor) :
    Meets (Fault.IsSpoken c.rest) (fun found => found.2.IsBehind c ∧ ¬found.1.isTag)
      (version start c) := by
  unfold version
  refine Meets.bind ((goes_versionNumber start _).of_isBehind (isBehind_skipWhile Cursor.isSpace c))
    fun major hmajor => ?_
  dsimp only
  split
  · exact Or.inl rfl
  · refine Meets.bind ((goes_versionNumber start _).of_isBehind ((isBehind_step _).trans hmajor))
      fun minor hminor => ?_
    split
    · exact ⟨hminor, Bool.false_ne_true⟩
    · exact Or.inl rfl

theorem meets_handleMeaning (start : Mark) (c : Cursor) :
    Meets (Fault.IsSpoken c.rest) (fun found => found.2.IsBehind c ∧ ¬found.1.isTag)
      (handleMeaning start c) := by
  unfold handleMeaning
  refine Meets.bind ((goes_handle .directive start _).of_isBehind
    (isBehind_skipWhile Cursor.isSpace c)) fun handle hhandle => ?_
  dsimp only
  split
  · exact Or.inl rfl
  · refine Meets.bind ((goes_text .directive .directiveTag start _).of_isBehind
      ((isBehind_skipWhile Cursor.isSpace _).trans hhandle)) fun text htext => ?_
    split
    · exact ⟨htext, Bool.false_ne_true⟩
    · exact Or.inl rfl

/-- A directive is no tag, even the one that says what a handle stands for. -/
theorem meets_directive (c : Cursor) :
    Meets (Fault.IsSpoken c.rest) (fun found => found.2.IsBehind c ∧ ¬found.1.kind.isTag)
      (directive c) := by
  unfold directive
  have hletters := (isBehind_takeWhile isNameChar c.step).trans (isBehind_step c)
  generalize c.step.takeWhile isNameChar = taken at hletters ⊢
  rcases taken with ⟨letters, behind⟩
  dsimp only
  -- Every directive ends in the same way: blanks, perhaps a comment, and the end of the line.
  have hend : ∀ found : TokenKind × Cursor, found.2.IsBehind behind ∧ ¬found.1.isTag →
      Meets (Fault.IsSpoken behind.rest) (fun found => found.2.IsBehind c ∧ ¬found.1.kind.isTag) (
        let after := found.2
        let after := if found.1 == .otherDirective then after.skipWhile isInLine else after
        let after := after.skipComment
        if after.atLineEnd then .ok ((⟨found.1, c.mark, found.2.mark⟩ : Token), after.skipBreak)
        else after.unexpected .directive c.mark "a comment or a line break") := by
    intro found hfound
    have hline : (if found.1 == .otherDirective then found.2.skipWhile isInLine
        else found.2).IsBehind c := by
      split
      · exact (isBehind_skipWhile isInLine found.2).trans (hfound.1.trans hletters)
      · exact hfound.1.trans hletters
    dsimp only
    generalize (if found.1 == .otherDirective then found.2.skipWhile isInLine else found.2) = after
      at hline ⊢
    split
    · exact ⟨(isBehind_skipBreak _).trans ((isBehind_skipComment _).trans hline), hfound.2⟩
    · exact Or.inl rfl
  split
  · exact Or.inl rfl
  · refine Fault.IsSpoken.within ?_ hletters.isInfix
    split
    · exact (meets_version c.mark behind).bind hend
    · split
      · exact (meets_handleMeaning c.mark behind).bind hend
      · exact hend (.otherDirective, behind) ⟨.refl behind, Bool.false_ne_true⟩

end Tag
end Yaml
end Roster
