import Roster.Proofs.Steps
import Roster.Proofs.Storage.Tables
import Roster.Yaml.Document

/-!
# Scalars that are what they look like

A scalar without a tag is taken for a truth value, a number or a moment only when its text has the
form of one.  Such a text has digits where they are asked for, and no line ends in it, so whatever
is wrong with its value is a fault that belongs to the document.
-/

namespace Roster

namespace Yaml

open Steps

/-- The result is of a kind, and whatever goes wrong belongs to the document. -/
abbrev Reads {α : Type} (Q : α → Prop) (x : Except Fault α) : Prop :=
  Meets (fun fault => fault.isReported = true) Q x

/-!
## Texts of scalars
-/

/-- A signed text has no characters that the text without its sign has not. -/
theorem Implicit.mem_of_mem_unsigned {cs : List Char} {c : Char} (h : c ∈ unsigned cs) : c ∈ cs := by
  unfold unsigned at h
  split at h
  · exact List.mem_cons_of_mem _ h
  · exact List.mem_cons_of_mem _ h
  · exact h

theorem Implicit.exists_of_spanNumber {first : Char → Bool} {cs rest : List Char}
    (h : spanNumber first cs = some rest) : ∃ c ∈ cs, first c = true := by
  cases cs with
  | nil => cases h
  | cons c more =>
      refine ⟨c, List.mem_cons_self, ?_⟩
      by_contra hfirst
      rw [spanNumber, if_neg hfirst] at h
      cases h

theorem Implicit.exists_digit_of_isInt {cs : List Char} (h : isInt cs = true) :
    ∃ c ∈ cs, c.isDigit = true := by
  suffices hbody : ∃ c ∈ unsigned cs, c.isDigit = true by
    rcases hbody with ⟨c, hc, hdigit⟩
    exact ⟨c, mem_of_mem_unsigned hc, hdigit⟩
  unfold isInt at h
  split at h
  · rename_i hbody
    exact ⟨'0', hbody ▸ List.mem_cons_self, rfl⟩
  · rename_i hbody
    exact ⟨'0', hbody ▸ List.mem_cons_self, rfl⟩
  · rename_i hbody
    exact ⟨'0', hbody ▸ List.mem_cons_self, rfl⟩
  · rename_i hbody
    exact ⟨'0', hbody ▸ List.mem_cons_self, rfl⟩
  · split at h
    · rename_i hspan
      exact exists_of_spanNumber hspan
    · rename_i hspan
      exact exists_of_spanNumber hspan
    · cases h

theorem Implicit.exists_of_isFloat {cs : List Char} (h : isFloat cs = true) :
    ∃ c ∈ cs, c.isDigit = true ∨ c = '.' := by
  have hunsigned : ∀ {body : List Char}, unsigned cs = body →
      (∃ c ∈ body, c.isDigit = true ∨ c = '.') → ∃ c ∈ cs, c.isDigit = true ∨ c = '.' := by
    rintro body rfl ⟨c, hc, hkind⟩
    exact ⟨c, mem_of_mem_unsigned hc, hkind⟩
  have hspan : ∀ {body rest : List Char}, spanNumber Char.isDigit body = some rest →
      ∃ c ∈ body, c.isDigit = true ∨ c = '.' := by
    intro body rest hspan
    rcases exists_of_spanNumber hspan with ⟨c, hc, hdigit⟩
    exact ⟨c, hc, Or.inl hdigit⟩
  have hword : ∀ words : List String, (∀ word ∈ words, '.' ∈ word.toList) → ∀ {body : List Char},
      words.any (·.toList == body) = true → ∃ c ∈ body, c.isDigit = true ∨ c = '.' := by
    intro words hwords body hany
    rcases List.any_eq_true.mp hany with ⟨word, hword, heq⟩
    exact ⟨'.', eq_of_beq heq ▸ hwords word hword, Or.inr rfl⟩
  unfold isFloat at h
  dsimp only at h
  rw [Bool.or_eq_true, Bool.or_eq_true, Bool.or_eq_true] at h
  rcases h with ((hdecimal | hpointed) | hinfinite) | hnan
  · cases hbody : spanNumber Char.isDigit (unsigned cs) with
    | none =>
        rw [hbody] at hdecimal
        cases hdecimal
    | some rest => exact hunsigned rfl (hspan hbody)
  · split at hpointed
    · exact ⟨'.', List.mem_cons_self, Or.inr rfl⟩
    · cases hpointed
  · exact hunsigned rfl (hword [".inf", ".Inf", ".INF"] (by decide) hinfinite)
  · exact hword [".nan", ".NaN", ".NAN"] (by decide) hnan

/-!
## Texts of moments
-/

namespace Timestamp

variable {cs rest : List Char}

theorem newLine_notMem_of_isDigit {digits : List Char} (h : ∀ c ∈ digits, c.isDigit = true) :
    '\n' ∉ digits :=
  fun hmem => absurd (h '\n' hmem) (by decide)

theorem newLine_notMem_of_isGap (hrest : '\n' ∉ cs.dropWhile isGap) : '\n' ∉ cs := by
  rw [← List.takeWhile_append_dropWhile (p := isGap) (l := cs), List.mem_append, not_or]
  exact ⟨fun hmem => absurd (List.mem_takeWhile_imp hmem) (by decide), hrest⟩

theorem newLine_notMem_of_takeDigits {least most : Nat} {digits : List Char}
    (h : takeDigits least most cs = some (digits, rest)) (hrest : '\n' ∉ rest) : '\n' ∉ cs := by
  rw [takeDigits] at h
  split at h
  · cases h
    have hdigits := (List.takeWhile_prefix (p := Char.isDigit) (l := cs.take most)).trans
      (List.take_prefix most cs)
    rw [← List.take_append_drop ((cs.take most).takeWhile Char.isDigit).length cs,
      ← List.prefix_iff_eq_take.mp hdigits, List.mem_append, not_or]
    exact ⟨newLine_notMem_of_isDigit fun c hc => List.mem_takeWhile_imp hc, hrest⟩
  · cases h

theorem newLine_notMem_of_takeChar {c : Char} (h : takeChar c cs = some rest) (hc : c ≠ '\n')
    (hrest : '\n' ∉ rest) : '\n' ∉ cs := by
  cases cs with
  | nil => exact List.not_mem_nil
  | cons d more =>
      rw [takeChar] at h
      split at h
      · rename_i heq
        cases h
        rw [beq_iff_eq] at heq
        exact List.not_mem_cons_of_ne_of_not_mem (heq ▸ hc.symm) hrest
      · cases h

theorem newLine_notMem_of_takeJoint (h : takeJoint cs = some rest) (hrest : '\n' ∉ rest) :
    '\n' ∉ cs := by
  unfold takeJoint at h
  split at h
  · cases h
    exact List.not_mem_cons_of_ne_of_not_mem (by decide) hrest
  · cases h
    exact List.not_mem_cons_of_ne_of_not_mem (by decide) hrest
  · split at h
    · rename_i c more _ _ hgap
      cases h
      refine List.not_mem_cons_of_ne_of_not_mem ?_ (newLine_notMem_of_isGap hrest)
      rintro rfl
      exact absurd hgap (by decide)
    · cases h
  · exact List.not_mem_nil

theorem newLine_notMem_of_takeFraction (hrest : '\n' ∉ (takeFraction cs).2) : '\n' ∉ cs := by
  unfold takeFraction at hrest
  split at hrest
  · rename_i digits
    rw [List.span_eq_takeWhile_dropWhile] at hrest
    refine List.not_mem_cons_of_ne_of_not_mem (by decide) ?_
    rw [← List.takeWhile_append_dropWhile (p := Char.isDigit) (l := digits), List.mem_append, not_or]
    exact ⟨newLine_notMem_of_isDigit fun c hc => List.mem_takeWhile_imp hc, hrest⟩
  · exact hrest

theorem newLine_notMem_of_takeZone {zone : Option Zone} (h : takeZone cs = some zone) :
    '\n' ∉ cs := by
  unfold takeZone at h
  split at h
  · rename_i hempty
    rw [List.isEmpty_iff.mp hempty]
    exact List.not_mem_nil
  · refine newLine_notMem_of_isGap ?_
    split at h
    · rename_i hbehind
      rw [hbehind]
      decide
    · rename_i sign more _ hbehind
      rw [hbehind]
      split at h
      · rename_i hsign
        have hne : '\n' ≠ sign := by
          rintro rfl
          exact absurd hsign (by decide)
        refine List.not_mem_cons_of_ne_of_not_mem hne ?_
        rcases Option.bind_eq_some_iff.mp h with ⟨⟨hours, afterHours⟩, hhours, h⟩
        refine newLine_notMem_of_takeDigits hhours ?_
        dsimp only at h
        split at h
        · rename_i hempty
          rw [List.isEmpty_iff.mp hempty]
          exact List.not_mem_nil
        · rcases Option.bind_eq_some_iff.mp h with ⟨behindHours, hcolon, h⟩
          rcases Option.bind_eq_some_iff.mp h with ⟨⟨minutes, afterMinutes⟩, hminutes, h⟩
          refine newLine_notMem_of_takeChar hcolon (by decide)
            (newLine_notMem_of_takeDigits hminutes ?_)
          dsimp only at h
          split at h
          · rename_i hempty
            rw [List.isEmpty_iff.mp hempty]
            exact List.not_mem_nil
          · cases h
      · cases h
    · cases h

theorem newLine_notMem_of_takeTime {time : TimeOfDay} (h : takeTime cs = some time) : '\n' ∉ cs := by
  simp only [takeTime, bind, Option.bind_eq_some_iff] at h
  rcases h with ⟨⟨hour, afterHour⟩, hhour, behindHour, hcolon, ⟨minute, afterMinute⟩, hminute,
    behindMinute, hsecondColon, ⟨second, afterSecond⟩, hsecond, zone, hzone, -⟩
  refine newLine_notMem_of_takeDigits hhour (newLine_notMem_of_takeChar hcolon (by decide) ?_)
  refine newLine_notMem_of_takeDigits hminute
    (newLine_notMem_of_takeChar hsecondColon (by decide) ?_)
  refine newLine_notMem_of_takeDigits hsecond (newLine_notMem_of_takeFraction ?_)
  exact newLine_notMem_of_takeZone hzone

theorem newLine_notMem_of_parse? {t : Timestamp} (h : parse? cs = some t) : '\n' ∉ cs := by
  rcases Option.bind_eq_some_iff.mp h with ⟨⟨year, afterYear⟩, hyear, h⟩
  rcases Option.bind_eq_some_iff.mp h with ⟨behindYear, hline, h⟩
  rcases Option.bind_eq_some_iff.mp h with ⟨⟨month, afterMonth⟩, hmonth, h⟩
  rcases Option.bind_eq_some_iff.mp h with ⟨behindMonth, hsecondLine, h⟩
  rcases Option.bind_eq_some_iff.mp h with ⟨⟨day, afterDay⟩, hday, h⟩
  refine newLine_notMem_of_takeDigits hyear (newLine_notMem_of_takeChar hline (by decide) ?_)
  refine newLine_notMem_of_takeDigits hmonth
    (newLine_notMem_of_takeChar hsecondLine (by decide) (newLine_notMem_of_takeDigits hday ?_))
  dsimp only at h
  split at h
  · rename_i hempty
    rw [List.isEmpty_iff.mp hempty]
    exact List.not_mem_nil
  · rcases Option.bind_eq_some_iff.mp h with ⟨behindDay, hjoint, h⟩
    rcases Option.bind_eq_some_iff.mp h with ⟨time, htime, -⟩
    exact newLine_notMem_of_takeJoint hjoint (newLine_notMem_of_takeTime htime)

end Timestamp

/-!
## Scalars that are what they look like
-/

theorem mem_lowerAfter {cs : List Char} {c : Char} (before : List Char) (hc : c ∈ cs)
    (hkind : c.isDigit = true ∨ c = '.') : c ∈ Text.lowerAfter before cs := by
  have hself : Text.lowerChar c = [c] := by
    rcases hkind with hdigit | rfl
    · have hascii : c.toNat < 0x80 := by
        rw [Char.isDigit, Bool.and_eq_true, decide_eq_true_eq, decide_eq_true_eq] at hdigit
        exact Nat.lt_of_le_of_lt (UInt32.le_iff_toNat_le.mp hdigit.2) (by decide)
      rw [Text.lowerChar, if_pos hascii, Text.toLower_of_isDigit hdigit]
    · decide
  have hsigma : (c == 'Σ') = false := by
    rw [beq_eq_false_iff_ne]
    rintro rfl
    revert hkind
    decide
  induction cs generalizing before with
  | nil => cases hc
  | cons d rest ih =>
      rw [Text.lowerAfter, List.mem_append]
      rcases List.mem_cons.mp hc with rfl | hrest
      · left
        rw [if_neg (by rw [hsigma]; exact Bool.false_ne_true), hself]
        exact List.mem_singleton.mpr rfl
      · exact Or.inr (ih (d :: before) hrest)

namespace Meaning

theorem reads_decimalOf (cs : List Char) : Reads (fun _ => True) (decimalOf cs) := by
  unfold decimalOf
  split
  · exact trivial
  · exact rfl
  · exact rfl

theorem reads_inBase (base : Nat) (cs : List Char) : Reads (fun _ => True) (inBase base cs) := by
  unfold inBase
  cases Numeral.parseBase base cs with
  | none => exact rfl
  | some i => exact trivial

theorem reads_sizeOf {cs : List Char} (hne : cs ≠ []) : Reads (fun _ => True) (sizeOf_ cs) := by
  unfold sizeOf_
  split
  · exact absurd rfl hne
  · exact trivial
  · exact reads_inBase 2 _
  · exact reads_inBase 16 _
  · exact reads_inBase 8 _
  · split
    · exact (Meets.mapM fun part _ => reads_decimalOf part).bind fun parts _ => trivial
    · exact reads_decimalOf _

theorem reads_numberOf (cs : List Char) : Reads (fun _ => True) (numberOf cs) := by
  unfold numberOf
  cases Decimal.parse? cs with
  | none => exact rfl
  | some number => exact trivial

/-- Digits and points are left of a number without low lines and without its sign. -/
theorem reads_withoutSign {s : String} {c : Char} (hc : c ∈ s.toList)
    (hkind : c.isDigit = true ∨ c = '.') :
    Reads (fun signed => signed.2 ≠ []) (withoutSign s) := by
  have hother : ∀ d ∈ ['_', '-', '+'], c ≠ d := by
    have hkinds : ['_', '-', '+'].all (fun d => !d.isDigit && d != '.') = true := by
      decide
    rintro d hd rfl
    have hd := List.all_eq_true.mp hkinds c hd
    rw [Bool.and_eq_true, Bool.not_eq_true', bne_iff_ne] at hd
    rcases hkind with hdigit | hpoint
    · exact Bool.false_ne_true (hd.1.symm.trans hdigit)
    · exact hd.2 hpoint
  have hmem : c ∈ s.toList.filter (· != '_') :=
    List.mem_filter.mpr ⟨hc, bne_iff_ne.mpr (hother '_' (by decide))⟩
  unfold withoutSign
  split
  · rename_i hnone
    rw [hnone] at hmem
    cases hmem
  · generalize s.toList.filter (· != '_') = found at hmem
    change (Numeral.splitSign found).2 ≠ []
    unfold Numeral.splitSign
    split
    · exact List.ne_nil_of_mem ((List.mem_cons.mp hmem).resolve_left (hother '-' (by decide)))
    · exact List.ne_nil_of_mem ((List.mem_cons.mp hmem).resolve_left (hother '+' (by decide)))
    · exact List.ne_nil_of_mem hmem

theorem reads_intOf {s : String} (h : Implicit.isInt s.toList = true) :
    Reads (fun _ => True) (intOf s) := by
  rcases Implicit.exists_digit_of_isInt h with ⟨c, hc, hdigit⟩
  refine (reads_withoutSign hc (Or.inl hdigit)).bind fun signed hsigned => ?_
  exact (reads_sizeOf hsigned).bind fun size _ => trivial

theorem reads_floatOf {s : String} (h : Implicit.isFloat s.toList = true) :
    Reads (fun _ => True) (floatOf s) := by
  rcases Implicit.exists_of_isFloat h with ⟨c, hc, hkind⟩
  have hlower : c ∈ (Text.lower s).toList := by
    rw [Text.lower, String.toList_ofList]
    exact mem_lowerAfter [] hc hkind
  refine (reads_withoutSign hlower hkind).bind fun signed _ => ?_
  rcases signed with ⟨negative, cs⟩
  dsimp only
  split
  · exact trivial
  · split
    · exact trivial
    · split
      · exact (Meets.mapM fun part _ => reads_numberOf part).bind fun parts _ => trivial
      · exact (reads_numberOf cs).bind fun size _ => trivial

theorem reads_boolOf {s : String} (h : Implicit.boolWords.contains s.toList = true) :
    Reads (fun _ => True) (boolOf s) := by
  have hwords : ∀ word ∈ Implicit.boolWords, (boolOf (String.ofList word)).isOk = true := by
    decide +kernel
  have hok := hwords s.toList (List.contains_iff_mem.mp h)
  rw [String.ofList_toList] at hok
  cases hresult : boolOf s with
  | ok d => exact trivial
  | error fault =>
      rw [hresult] at hok
      cases hok

theorem reads_momentOf {s : String} (h : Implicit.isTimestamp s.toList = true) :
    Reads (fun _ => True) (momentOf s) := by
  unfold Implicit.isTimestamp at h
  split at h
  · rename_i t hparse
    have hlast : (s.toList.getLast? == some '\n') = false := by
      rw [beq_eq_false_iff_ne]
      exact fun heq => Timestamp.newLine_notMem_of_parse? hparse (List.mem_of_getLast? heq)
    unfold momentOf
    dsimp only
    rw [if_neg (by rw [hlast]; exact Bool.false_ne_true), hparse]
    dsimp only
    cases t.fault? with
    | none => exact trivial
    | some fault => exact rfl
  · cases h

end Meaning

end Yaml
end Roster
