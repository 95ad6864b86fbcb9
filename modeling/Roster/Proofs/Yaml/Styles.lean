import Roster.Proofs.Yaml.Plain
import Roster.Yaml.Document

/-!
# Scalars of every style

A text on one line is read back as it is, whatever its style.  What holds of the characters of a
text, of blanks and of the signs of escapes holds of all that the pen writes; so a document has
acceptable characters only, and a key stays on its line.
-/

namespace Roster
namespace Yaml

/-!
## What a style says of a text
-/

section Styles

variable {isKey : Bool} {cs : List Char}

theorem Style.of_eq_plain (h : ofText isKey cs = .plain) :
    Implicit.sortOf cs = .str ∧ allowsPlain cs = true ∧ cs ≠ [] := by
  rw [ofText] at h
  split at h
  · rename_i hplain
    simpa [and_assoc] using hplain
  · split at h <;> cases h

theorem Style.allowsSingle_of_eq_single (h : ofText isKey cs = .single) :
    allowsSingle cs = true := by
  rw [ofText] at h
  split at h
  · cases h
  · split at h
    · rename_i hsingle
      simp only [Bool.and_eq_true, Bool.or_eq_true, List.isEmpty_iff] at hsingle
      rcases hsingle.1 with hallows | rfl
      · exact hallows
      · rfl
    · cases h

theorem reread_of_eq_double (h : Style.ofText isKey cs = .double)
    (hline : isKey = true → Style.isMultiline cs = false) : reread cs = cs := by
  rw [Style.ofText] at h
  split at h
  · cases h
  · split at h
    · cases h
    · rename_i hsingle
      have hmany : (isKey && Style.isMultiline cs) = false := by
        cases isKey with
        | true => simpa using hline rfl
        | false => rfl
      simp only [hmany, Bool.not_false, Bool.and_true, Bool.or_eq_true, not_or] at hsingle
      rw [reread, if_neg hsingle.1]

theorem reread_eq_self (h : '\x85' ∉ cs) : reread cs = cs := by
  have hends : ∀ ends : List Char, (∀ ch ∈ ends, ch ∈ cs) → ends.map lineEnd = ends := by
    intro ends hmem
    refine Eq.trans (List.map_congr_left fun ch hch => ?_) (List.map_id ends)
    have hne : ch ≠ '\x85' := fun heq => h (heq ▸ hmem ch hch)
    simp [lineEnd, hne]
  rw [reread]
  split
  · refine Eq.trans (List.flatMap_congr fun s hs => ?_) (Stretch.flatMap_text_stretches cs)
    have hmem := fun ch => Stretch.mem_of_mem_text (c := ch) hs
    cases s with
    | blanks count => rfl
    | word cs => rfl
    | breaks ends =>
        cases ends with
        | nil => rfl
        | cons first rest =>
            rcases List.forall_mem_cons.mp hmem with ⟨hfirst, hrest⟩
            have hne : first ≠ '\x85' := fun heq => h (heq ▸ hfirst)
            rw [Stretch.reread, if_neg hne, hends rest hrest]
            rfl
  · rfl

theorem nextLine_notMem_map_lineEnd (ends : List Char) : '\x85' ∉ ends.map lineEnd := by
  intro hmem
  rcases List.mem_map.mp hmem with ⟨ch, -, heq⟩
  rw [lineEnd] at heq
  split at heq
  · cases heq
  · rename_i hne
    exact hne (beq_iff_eq.mpr heq)

theorem nextLine_notMem_reread (h : Style.allowsSingle cs = true) : '\x85' ∉ reread cs := by
  rw [reread, if_pos h]
  intro hmem
  rcases List.mem_flatMap.mp hmem with ⟨s, hs, hch⟩
  have hproper := Stretch.isProper_of_mem hs
  cases s with
  | blanks count => cases List.eq_of_mem_replicate hch
  | word cs => cases hproper.2 _ hch
  | breaks ends =>
      cases ends with
      | nil => cases hch
      | cons first rest =>
          rw [Stretch.reread] at hch
          split at hch
          · split at hch
            · cases List.mem_singleton.mp hch
            · exact nextLine_notMem_map_lineEnd rest hch
          · rename_i hne
            rcases List.mem_cons.mp hch with heq | hrest
            · exact hne heq.symm
            · exact nextLine_notMem_map_lineEnd rest hrest

/-- Only a text with the next line of the control characters that can stand between single quotes is
read as another one. -/
theorem reread_eq_self_iff : reread cs = cs ↔ (Style.allowsSingle cs = true → '\x85' ∉ cs) := by
  constructor
  · intro heq hsingle
    rw [← heq]
    exact nextLine_notMem_reread hsingle
  · intro hnext
    by_cases hsingle : Style.allowsSingle cs = true
    · exact reread_eq_self (hnext hsingle)
    · rw [reread, if_neg hsingle]

/-- Line ends are read as line ends, or the first of them as a blank. -/
theorem Stretch.reread_eq_text {s : Stretch} (hproper : s.IsProper)
    (h : ∀ ch ∈ s.reread, CharClass.of ch = .letter) : s.reread = s.text := by
  cases s with
  | blanks count => rfl
  | word cs => rfl
  | breaks ends =>
      have hends : ∀ ch ∈ ends, CharClass.of ch = .lineEnd := hproper.2
      cases ends with
      | nil => rfl
      | cons first rest =>
          rcases List.forall_mem_cons.mp hends with ⟨hfirst, hrest⟩
          rw [reread] at h
          split at h
          · cases rest with
            | nil => cases h ' ' (List.mem_singleton_self _)
            | cons second rest =>
                have hsecond : CharClass.of (lineEnd second) = .lineEnd := by
                  rw [lineEnd]
                  split
                  · rfl
                  · exact hrest second List.mem_cons_self
                have hletter := h (lineEnd second) List.mem_cons_self
                rw [hsecond] at hletter
                cases hletter
          · have hletter := h first List.mem_cons_self
            rw [hfirst] at hletter
            cases hletter

theorem reread_eq_self_of_letters (h : ∀ ch ∈ reread cs, CharClass.of ch = .letter) :
    reread cs = cs := by
  rw [reread] at h ⊢
  split
  · rename_i hsingle
    rw [if_pos hsingle] at h
    refine Eq.trans (List.flatMap_congr fun s hs => ?_) (Stretch.flatMap_text_stretches cs)
    exact Stretch.reread_eq_text (Stretch.isProper_of_mem hs) fun ch hch =>
      h ch (List.mem_flatMap.mpr ⟨s, hs, hch⟩)
  · rfl

theorem reread_of_inLine (h : ∀ ch ∈ cs, Style.isBreak ch = false) : reread cs = cs :=
  reread_eq_self fun hmem => Bool.noConfusion (h _ hmem)

end Styles

/-!
## Characters
-/

/-- A visible character or a blank of the first half of the octets. -/
def IsSign (ch : Char) : Prop := 0x20 ≤ ch.toNat ∧ ch.toNat ≤ 0x7E

instance (ch : Char) : Decidable (IsSign ch) := instDecidableAnd

theorem isSign_of_hexValue? {ch : Char} (h : (Scalar.hexValue? ch).isSome = true) : IsSign ch := by
  rw [Scalar.hexValue?] at h
  rw [IsSign]
  split at h
  · rename_i hdigit
    have hrange := Char.isDigit_iff_toNat.mp hdigit
    simp only [Char.reduceToNat] at hrange
    omega
  · split at h
    · rename_i hlower
      simp only [Bool.and_eq_true, decide_eq_true_eq, Char.le_def, UInt32.le_iff_toNat_le] at hlower
      exact ⟨Nat.le_trans (by decide) hlower.1, Nat.le_trans hlower.2 (by decide)⟩
    · split at h
      · rename_i hupper
        simp only [Bool.and_eq_true, decide_eq_true_eq, Char.le_def, UInt32.le_iff_toNat_le] at hupper
        exact ⟨Nat.le_trans (by decide) hupper.1, Nat.le_trans hupper.2 (by decide)⟩
      · cases h

theorem isSign_escape (c : Char) :
    (∀ ch ∈ Pen.escape c, IsSign ch) ∧ (Pen.escape c).length ≤ 10 := by
  have hcode : ∀ {letter : Char} {width : Nat}, IsSign letter → 0 < width → width ≤ 8 →
      c.toNat < 16 ^ width →
      (∀ ch ∈ '\\' :: letter :: Pen.hex width c.toNat, IsSign ch) ∧
        ('\\' :: letter :: Pen.hex width c.toNat).length ≤ 10 := by
    intro letter width hletter hwidth hshort hlt
    rcases Scalar.hex_spec hwidth hlt with ⟨hlength, hdigits, -⟩
    rw [List.forall_mem_cons, List.forall_mem_cons, List.length_cons, List.length_cons, hlength]
    exact ⟨⟨by decide, hletter, fun ch hch => isSign_of_hexValue? (hdigits ch hch)⟩, by omega⟩
  have hvalid : c.toNat < 0x110000 := by
    have hchar : c.toNat < 0xD800 ∨ 0xDFFF < c.toNat ∧ c.toNat < 0x110000 := c.valid
    omega
  rw [Pen.escape]
  cases hletter : Pen.letterEscapes.lookup c with
  | some letter =>
      have hall : ∀ pair ∈ Pen.letterEscapes, IsSign pair.2 := by decide
      rcases List.lookup_eq_some_iff.mp hletter with ⟨front, back, hsplit, -⟩
      have hsign := hall (c, letter) (hsplit ▸ List.mem_append_right _ List.mem_cons_self)
      simp only [List.forall_mem_cons, List.not_mem_nil, false_imp_iff, implies_true, and_true,
        List.length_cons, List.length_nil]
      exact ⟨⟨by decide, hsign⟩, by decide⟩
  | none =>
      dsimp only
      split
      · exact hcode (by decide) (by decide) (by decide) (by omega)
      · split
        · exact hcode (by decide) (by decide) (by decide) (by omega)
        · exact hcode (by decide) (by decide) (by decide) (by omega)

variable {level : Nat} {folds isKey : Bool} {cs text : List Char} {P : Char → Prop}

theorem forall_mem_of_laid {escape : Char → List Char} {parts : List Stretch}
    (h : Laid level folds escape parts text) (hfeed : folds = true → P '\n') (hblank : P ' ')
    (hescape : ∀ c, P c → ∀ ch ∈ escape c, P ch) (hparts : ∀ s ∈ parts, ∀ ch ∈ s.text, P ch) :
    ∀ ch ∈ text, P ch := by
  have hblanks : ∀ count, ∀ ch ∈ List.replicate count ' ', P ch := fun count ch hch =>
    List.eq_of_mem_replicate hch ▸ hblank
  induction h with
  | nil => exact nofun
  | blanks count h ih =>
      rw [List.forall_mem_append]
      exact ⟨hblanks count, ih (List.forall_mem_cons.mp hparts).2⟩
  | fold hfolds hrest hkept h ih =>
      rw [List.forall_mem_append, newLine, List.forall_mem_cons]
      exact ⟨⟨hfeed hfolds, hblanks level⟩, ih (List.forall_mem_cons.mp hparts).2⟩
  | breaks cs hkept h ih =>
      rcases List.forall_mem_cons.mp hparts with ⟨hcs, hrest⟩
      rw [List.forall_mem_append, lineEnds, List.forall_mem_append, List.forall_mem_append]
      refine ⟨⟨⟨?_, hcs⟩, hblanks level⟩, ih hrest⟩
      split
      · rename_i hhead
        rw [List.forall_mem_singleton]
        exact hcs '\n' (List.mem_of_mem_head? hhead)
      · exact nofun
  | word cs h ih =>
      rcases List.forall_mem_cons.mp hparts with ⟨hcs, hrest⟩
      rw [List.forall_mem_append, List.forall_mem_flatMap]
      exact ⟨fun c hc => hescape c (hcs c hc), ih hrest⟩

theorem forall_mem_of_escaped (h : Escaped level folds cs text) (hfeed : folds = true → P '\n')
    (hsign : ∀ ch, IsSign ch → P ch) (hbare : ∀ ch, Pen.isBare ch = true → P ch) :
    ∀ ch ∈ text, P ch := by
  have hnew : folds = true → ∀ ch ∈ '\\' :: newLine level, P ch := by
    intro hfolds
    rw [newLine, List.forall_mem_cons, List.forall_mem_cons]
    exact ⟨hsign _ (by decide), hfeed hfolds, fun ch hch =>
      List.eq_of_mem_replicate hch ▸ hsign ' ' (by decide)⟩
  induction h with
  | nil => exact fun ch hch => absurd hch List.not_mem_nil
  | bare hisBare h ih => exact List.forall_mem_cons.mpr ⟨hbare _ hisBare, ih⟩
  | escape hisBare h ih =>
      exact List.forall_mem_append.mpr ⟨fun ch hch => hsign ch ((isSign_escape _).1 ch hch), ih⟩
  | fold hfolds hblank h ih => exact List.forall_mem_append.mpr ⟨hnew hfolds, ih⟩
  | foldBlank hfolds h ih =>
      refine List.forall_mem_append.mpr ⟨hnew hfolds, ?_⟩
      rw [List.forall_mem_cons, List.forall_mem_cons]
      exact ⟨hsign _ (by decide), hsign _ (by decide), ih⟩

/-- What holds of all signs, of bare and clear characters of the text and, where it may have several
lines, of a line feed, holds of the written scalar. -/
theorem forall_mem_of_written (h : Written level isKey cs text) (hfeed : isKey = false → P '\n')
    (hsign : ∀ ch, IsSign ch → P ch) (hbare : ∀ ch, Pen.isBare ch = true → P ch)
    (hclear : ∀ ch ∈ cs, Style.isClear ch = true → P ch) : ∀ ch ∈ text, P ch := by
  have hfeed : (!isKey) = true → P '\n' := by simpa using hfeed
  have hquote : P '\'' := hsign _ (by decide)
  have hparts : (∀ ch ∈ cs, Style.isClear ch = true) → ∀ s ∈ stretches cs, ∀ ch ∈ s.text, P ch := by
    intro hall s hs ch hch
    have hmem := Stretch.mem_of_mem_text hs hch
    exact hclear ch hmem (hall ch hmem)
  cases h with
  | plain hstyle h =>
      have hall := (Style.allowsPlain_iff.mp (Style.of_eq_plain hstyle).2.1).2.2.2.2
      exact forall_mem_of_laid h hfeed (hsign _ (by decide))
        (fun c hc => List.forall_mem_singleton.mpr hc) (hparts hall)
  | single hstyle h =>
      have hsingle := Style.allowsSingle_of_eq_single hstyle
      simp only [Style.allowsSingle, Bool.and_eq_true, List.all_eq_true] at hsingle
      have hbody := forall_mem_of_laid h hfeed (hsign _ (by decide)) (fun c hc ch hch => ?_)
        (hparts hsingle.1.1)
      · rw [List.cons_append, List.forall_mem_cons, List.forall_mem_append, List.forall_mem_singleton]
        exact ⟨hquote, hbody, hquote⟩
      · rw [Pen.doubleQuote] at hch
        split at hch
        · simp only [List.mem_cons, List.not_mem_nil, or_false, or_self] at hch
          exact hch ▸ hquote
        · exact List.mem_singleton.mp hch ▸ hc
  | double hstyle h =>
      have hdouble : P '"' := hsign _ (by decide)
      rw [List.cons_append, List.forall_mem_cons, List.forall_mem_append, List.forall_mem_singleton]
      exact ⟨hdouble, forall_mem_of_escaped h hfeed hsign hbare, hdouble⟩

/-!
## Documents and keys
-/

theorem acceptable_of_isBare {ch : Char} (h : Pen.isBare ch = true) :
    isAcceptable ch = true ∧ ch ≠ '\r' := by
  have hvalid : ch.toNat < 0xD800 ∨ 0xDFFF < ch.toNat ∧ ch.toNat < 0x110000 := ch.valid
  simp only [Pen.isBare, Bool.and_eq_true, Bool.or_eq_true, decide_eq_true_eq] at h
  refine ⟨?_, ?_⟩
  · simp only [isAcceptable, Bool.or_eq_true, Bool.and_eq_true, decide_eq_true_eq]
    omega
  · rintro rfl
    revert h
    decide

theorem acceptable_of_isClear {ch : Char} (h : Style.isClear ch = true) :
    isAcceptable ch = true ∧ ch ≠ '\r' := by
  have hvalid : ch.toNat < 0xD800 ∨ 0xDFFF < ch.toNat ∧ ch.toNat < 0x110000 := ch.valid
  simp only [Style.isClear, Bool.and_eq_true, Bool.or_eq_true, decide_eq_true_eq, beq_iff_eq] at h
  refine ⟨?_, ?_⟩
  · simp only [isAcceptable, Bool.or_eq_true, Bool.and_eq_true, decide_eq_true_eq, beq_iff_eq]
    rcases h with (((rfl | h) | h) | h) | h
    · simp
    all_goals omega
  · rintro rfl
    revert h
    decide

/-- Whatever the text, the pen writes characters that a document may hold. -/
theorem acceptable_of_written (h : Written level isKey cs text) :
    ∀ ch ∈ text, isAcceptable ch = true ∧ ch ≠ '\r' := by
  refine forall_mem_of_written h (fun _ => by decide) (fun ch hsign => ?_)
    (fun ch => acceptable_of_isBare) fun ch _ => acceptable_of_isClear
  refine acceptable_of_isClear ?_
  simp [Style.isClear, hsign.1, hsign.2]

theorem inLine_of_written (h : Written level true cs text) (hline : Style.isMultiline cs = false) :
    ∀ ch ∈ text, Style.isBreak ch = false ∧ ch ≠ '\uFEFF' := by
  refine forall_mem_of_written h nofun (fun ch hsign => ?_) (fun ch hbare => ?_)
    fun ch hmem hclear => ?_
  · have hne : ∀ other, ¬IsSign other → ch ≠ other := fun other hother heq => hother (heq ▸ hsign)
    exact ⟨by simp [Style.isBreak, hne '\n' (by decide), hne '\x85' (by decide),
      hne '\u2028' (by decide), hne '\u2029' (by decide)], hne _ (by decide)⟩
  · refine ⟨?_, ?_⟩
    · by_cases hblank : ch = ' '
      · rw [hblank]
        decide
      · exact (Scalar.isVisible_of_isBare hbare hblank).1.2
    · rintro rfl
      revert hbare
      decide
  · refine ⟨?_, ?_⟩
    · exact Bool.eq_false_iff.mpr fun hbreak =>
        Bool.eq_false_iff.mp hline (List.any_eq_true.mpr ⟨ch, hmem, hbreak⟩)
    · rintro rfl
      revert hclear
      decide

theorem length_le_of_laid {escape : Char → List Char} {parts : List Stretch}
    (h : Laid level false escape parts text) (hescape : ∀ c, (escape c).length ≤ 10)
    (hline : ∀ s ∈ parts, s.charClass ≠ .lineEnd) :
    text.length ≤ 10 * (parts.flatMap Stretch.text).length := by
  induction h with
  | nil => exact Nat.le_refl _
  | blanks count h ih =>
      have hrest := ih (List.forall_mem_cons.mp hline).2
      simp only [List.flatMap_cons, Stretch.text, List.length_append, List.length_replicate]
      omega
  | fold hfolds hrest hkept h ih => cases hfolds
  | breaks cs hkept h ih => exact absurd rfl (hline (.breaks cs) List.mem_cons_self)
  | word cs h ih =>
      have hrest := ih (List.forall_mem_cons.mp hline).2
      have hword : (cs.flatMap escape).length ≤ 10 * cs.length := by
        clear hline
        induction cs with
        | nil => exact Nat.le_refl _
        | cons c cs ih =>
            have hc := hescape c
            simp only [List.flatMap_cons, List.length_append, List.length_cons]
            omega
      simp only [List.flatMap_cons, Stretch.text, List.length_append]
      omega

theorem length_le_of_escaped (h : Escaped level false cs text) : text.length ≤ 10 * cs.length := by
  induction h with
  | nil => exact Nat.le_refl _
  | bare hbare h ih =>
      simp only [List.length_cons]
      omega
  | @escape c cs text hbare h ih =>
      have hescape := (isSign_escape c).2
      simp only [List.length_cons, List.length_append]
      omega
  | fold hfolds hblank h ih => cases hfolds
  | foldBlank hfolds h ih => cases hfolds

theorem laid_level {escape : Char → List Char} {parts : List Stretch}
    (h : Laid level false escape parts text) (hline : ∀ s ∈ parts, s.charClass ≠ .lineEnd)
    (other : Nat) : Laid other false escape parts text := by
  induction h with
  | nil => exact .nil
  | blanks count h ih => exact .blanks count (ih (List.forall_mem_cons.mp hline).2)
  | fold hfolds hrest hkept h ih => cases hfolds
  | breaks cs hkept h ih => exact absurd rfl (hline (.breaks cs) List.mem_cons_self)
  | word cs h ih => exact .word cs (ih (List.forall_mem_cons.mp hline).2)

theorem escaped_level (h : Escaped level false cs text) (other : Nat) :
    Escaped other false cs text := by
  induction h with
  | nil => exact .nil
  | bare hbare h ih => exact .bare hbare ih
  | escape hbare h ih => exact .escape hbare ih
  | fold hfolds hblank h ih => cases hfolds
  | foldBlank hfolds h ih => cases hfolds

theorem inLine_stretches (hline : Style.isMultiline cs = false) :
    ∀ s ∈ stretches cs, s.charClass ≠ .lineEnd := by
  intro s hs hclass
  have hproper := Stretch.isProper_of_mem hs
  rcases List.exists_mem_of_ne_nil _ hproper.1 with ⟨ch, hch⟩
  have hbreak := CharClass.of_eq_lineEnd_iff.mp ((hproper.2 ch hch).trans hclass)
  exact Bool.eq_false_iff.mp hline
    (List.any_eq_true.mpr ⟨ch, Stretch.mem_of_mem_text hs hch, hbreak⟩)

/-- A key on one line is written in the same way wherever it stands. -/
theorem written_level (h : Written level true cs text) (hline : Style.isMultiline cs = false)
    (other : Nat) : Written other true cs text := by
  cases h with
  | plain hstyle h => exact .plain hstyle (laid_level h (inLine_stretches hline) other)
  | single hstyle h => exact .single hstyle (laid_level h (inLine_stretches hline) other)
  | double hstyle h => exact .double hstyle (escaped_level h other)

theorem inLine_of_isSimpleKey (h : Pen.isSimpleKey cs = true) : Style.isMultiline cs = false := by
  simp only [Pen.isSimpleKey, Bool.and_eq_true, Bool.not_eq_true'] at h
  exact h.1.2

/-- A key that is written on one line is short enough to be recognised there. -/
def KeyFits (k : String) : Prop :=
  Pen.isSimpleKey k.toList = true → ∀ text, Written 2 true k.toList text → text.length ≤ 1024

theorem KeyFits.length_le {k : String} (h : KeyFits k) (hsimple : Pen.isSimpleKey k.toList = true)
    (hwritten : Written level true k.toList text) : text.length ≤ 1024 :=
  h hsimple text (written_level hwritten (inLine_of_isSimpleKey hsimple) 2)

theorem keyFits_of_length {k : String} (h : k.length ≤ 102) : KeyFits k := by
  intro hsimple text hwritten
  have hchars : k.toList.length ≤ 102 := by rwa [String.length_toList]
  have hline := inLine_stretches (inLine_of_isSimpleKey hsimple)
  cases hwritten with
  | plain hstyle h =>
      have hbody := length_le_of_laid h (fun _ => by simp) hline
      rw [Stretch.flatMap_text_stretches] at hbody
      omega
  | single hstyle h =>
      have hquotes : ∀ c, (Pen.doubleQuote c).length ≤ 10 := by
        intro c
        rw [Pen.doubleQuote]
        split <;> exact Nat.le_of_ble_eq_true rfl
      have hbody := length_le_of_laid h hquotes hline
      rw [Stretch.flatMap_text_stretches] at hbody
      simp only [List.length_append, List.length_cons, List.length_nil]
      omega
  | double hstyle h =>
      have hbody := length_le_of_escaped h
      simp only [List.length_append, List.length_cons, List.length_nil]
      omega

/-!
## Texts as they are read back
-/

/-- A text as it is read back. -/
def rereadText (s : String) : String := String.ofList (reread s.toList)

/-- The text has no next line of the control characters, or needs double quotes. -/
def IsFaithful (s : String) : Prop := Style.allowsSingle s.toList = true → '\x85' ∉ s.toList

instance (s : String) : Decidable (IsFaithful s) := inferInstanceAs (Decidable (_ → _))

/-- A text is read back as itself or, when it holds the next line of the control characters between
single quotes, as another one. -/
theorem rereadText_eq_self_iff {s : String} : rereadText s = s ↔ IsFaithful s := by
  rw [IsFaithful, ← reread_eq_self_iff, rereadText]
  constructor
  · intro heq
    simpa using congrArg String.toList heq
  · intro heq
    rw [heq, String.ofList_toList]

theorem eq_of_rereadText_eq {s text : String}
    (h : ∀ ch ∈ s.toList, ch ≠ ' ' ∧ Style.isBreak ch = false) (hread : rereadText text = s) :
    text = s := by
  have hchars : reread text.toList = s.toList := by
    rw [← hread, rereadText, String.toList_ofList]
  have hself : reread text.toList = text.toList := reread_eq_self_of_letters fun ch hch =>
    CharClass.of_eq_letter_iff.mpr (h ch (hchars ▸ hch))
  exact String.toList_inj.mp (hself.symm.trans hchars)

end Yaml
end Roster
