import Roster.Proofs.Number.Layout
import Roster.Proofs.Yaml.Styles
import Roster.Yaml.Meaning

/-!
# Words are read back

Truth values, numbers and nothing are written as words without quotes.  No word could be taken for
markup, and each is read as the value for which it stands.
-/

namespace Roster
namespace Yaml

open Numeral (signed numericChars)
open Double (Parts)

/-- The word for a value that is written without quotes and stands for no text. -/
def word? : Value → Option (List Char)
  | .null => some "null".toList
  | .bool b => some (if b then "true" else "false").toList
  | .int i => some (toString i).toList
  | .float d => some (floatText d)
  | _ => none

/-- A whole number is not longer than a numeral may be, and any other number is rounded. -/
def IsReadable : Value → Prop
  | .int i => (Nat.toDigits 10 i.natAbs).length ≤ Numeral.maxDigits
  | .float d => d.Canonical
  | _ => True

/-!
## Characters of numbers
-/

section Characters

variable {c d : Char} {cs tail : List Char}

theorem numeric_signed (negative : Bool) (h : ∀ c ∈ cs, c ∈ numericChars) :
    ∀ c ∈ signed negative cs, c ∈ numericChars := by
  cases negative with
  | true => exact List.forall_mem_cons.mpr ⟨by decide, h⟩
  | false => exact h

theorem letter_of_numeric (h : c ∈ numericChars) : CharClass.of c = .letter := by
  have hall : ∀ c ∈ numericChars, CharClass.of c = .letter := by decide
  exact hall c h

theorem lowerAfter_numeric (h : ∀ c ∈ cs, c ∈ numericChars) (before : List Char) :
    Text.lowerAfter before cs = cs := by
  have hall : ∀ c ∈ numericChars, (c == 'Σ') = false ∧ Text.lowerChar c = [c] := by decide
  induction cs generalizing before with
  | nil => rfl
  | cons c rest ih =>
      rcases List.forall_mem_cons.mp h with ⟨hc, hrest⟩
      rw [Text.lowerAfter, (hall c hc).1, (hall c hc).2, ih hrest]
      rfl

theorem holdsIndicator_numeric (h : ∀ c ∈ cs, c ∈ numericChars) (previous : Char) :
    Style.holdsIndicator previous cs = false := by
  have hall : ∀ c ∈ numericChars, (c == ':') = false ∧ (c == '#') = false := by decide
  induction cs generalizing previous with
  | nil => rfl
  | cons c rest ih =>
      rcases List.forall_mem_cons.mp h with ⟨hc, hrest⟩
      rw [Style.holdsIndicator, (hall c hc).1, (hall c hc).2, ih hrest]
      rfl

theorem allowsPlain_signed (negative : Bool) (hd : d.isDigit = true)
    (htail : ∀ c ∈ d :: tail, c ∈ numericChars) :
    Style.allowsPlain (signed negative (d :: tail)) = true := by
  have hall : ∀ c ∈ numericChars, (Style.isSpace c = false ∧ Style.isBreak c = false) ∧
      Style.isClear c = true ∧ c ∉ Style.leadingIndicators ∧
      Style.isSeparator c = false ∧ (c == '?') = false ∧ (c == ':') = false := by decide
  have hsigned := numeric_signed negative htail
  have hminus : d ≠ '-' := by
    rintro rfl
    cases hd
  have hpoint : ('.' == d) = false := by
    rw [beq_eq_false_iff_ne]
    rintro rfl
    cases hd
  have hd' := hall d (htail d List.mem_cons_self)
  refine Style.allowsPlain_iff.mpr ⟨fun c hc => (hall c (hsigned c (List.mem_of_mem_head? hc))).1,
    fun c hc => (hall c (hsigned c (List.mem_of_mem_getLast? hc))).1,
    fun c hc => (hall c (hsigned c hc)).1.2, ?_, fun c hc => (hall c (hsigned c hc)).2.1⟩
  cases negative with
  | true =>
      have hleading : '-' ∉ Style.leadingIndicators := by decide
      have hrest := holdsIndicator_numeric htail '-'
      simp [signed, Style.looksLikeMarkup, Style.startsWithIndicator, Style.atSeparator, List.isPrefixOf,
        hleading, hrest, hminus.symm, hd'.2.2.2.1]
  | false =>
      have hrest := holdsIndicator_numeric (fun c hc => htail c (List.mem_cons_of_mem _ hc)) d
      simp [signed, Style.looksLikeMarkup, Style.startsWithIndicator, List.isPrefixOf, hrest, hminus,
        hminus.symm, hpoint, hd'.2.2.1, hd'.2.2.2.2]

end Characters

/-!
## Numbers as words
-/

section Numbers

variable {negative : Bool} {cs : List Char} {p : Parts} {c : Char}

theorem notMem_of_isDigit (hcs : ∀ d ∈ cs, d.isDigit = true) (hc : c.isDigit = false) : c ∉ cs := by
  intro hmem
  rw [hcs c hmem] at hc
  cases hc

theorem mem_exponentText {e : Int} (h : c ∈ Double.exponentText e) :
    c.isDigit = true ∨ c = '-' ∨ c = '+' := by
  rcases Double.exponentText_eq e with ⟨zeros, hzeros⟩
  rw [hzeros] at h
  rcases List.mem_cons.mp h with rfl | h
  · split
    · exact Or.inr (Or.inl rfl)
    · exact Or.inr (Or.inr rfl)
  · exact Or.inl (List.forall_mem_append.mpr ⟨Double.isDigit_zeros zeros,
      fun d hd => Numeral.isDigit_of_mem_toDigits hd⟩ c h)

theorem notMem_exponentText {e : Int} (hdigit : c.isDigit = false) (hsign : c ≠ '-' ∧ c ≠ '+') :
    c ∉ Double.exponentText e := by
  intro hmem
  rcases mem_exponentText hmem with h | rfl | rfl
  · rw [hdigit] at h
    cases h
  · exact hsign.1 rfl
  · exact hsign.2 rfl

/-- Where a number has no fraction, a zero. -/
def pointed (p : Parts) : Parts :=
  { p with fraction := if p.fraction.isEmpty then ['0'] else p.fraction }

theorem isProper_pointed (h : p.IsProper) : (pointed p).IsProper := by
  refine ⟨h.whole, h.ne_nil, h.first, ?_, Or.inl ?_⟩
  · rw [pointed]
    split
    · exact List.forall_mem_singleton.mpr rfl
    · exact h.fraction
  · rw [pointed]
    split
    · exact List.cons_ne_nil _ _
    · rename_i hne
      exact fun hnil => hne (List.isEmpty_iff.mpr hnil)

theorem value_pointed (p : Parts) (negative : Bool) : (pointed p).value negative = p.value negative := by
  by_cases hfraction : p.fraction = []
  · rw [pointed, if_pos (List.isEmpty_iff.mpr hfraction), Parts.value, Parts.value, hfraction,
      List.append_nil, Nat.ofDigitChars_append]
    exact (congrArg₂ (Double.ofDecimal negative) (Nat.mul_comm _ _) rfl).trans
      ((Double.ofDecimal_mul_ten _ _ _).trans (by simp))
  · rw [pointed, if_neg (by simpa using hfraction)]

/-- What is put in front of the letter of an exponent touches nothing else. -/
theorem insertPoint_eq_self (h : 'e' ∉ cs) :
    (cs.flatMap fun c => if c == 'e' then ['.', '0', 'e'] else [c]) = cs := by
  induction cs with
  | nil => rfl
  | cons c rest ih =>
      rcases not_or.mp (List.mem_cons.not.mp h) with ⟨hc, hrest⟩
      rw [List.flatMap_cons, ih hrest, if_neg (by simpa using Ne.symm hc)]
      rfl

theorem insertPoint_text (h : p.IsProper) (hfraction : p.fraction = []) :
    (p.text.flatMap fun c => if c == 'e' then ['.', '0', 'e'] else [c]) = (pointed p).text := by
  have hwhole := insertPoint_eq_self (notMem_of_isDigit h.whole (by decide : 'e'.isDigit = false))
  rcases p with ⟨whole, fraction, exponent⟩
  cases hfraction
  cases exponent with
  | none => exact absurd (h.notWhole.resolve_left fun hne => hne rfl) Bool.false_ne_true
  | some power =>
      have hpower : 'e' ∉ Double.exponentText power := notMem_exponentText rfl (by decide)
      simp only [Parts.text, pointed, List.flatMap_append, List.flatMap_cons, hwhole,
        insertPoint_eq_self hpower, List.isEmpty_nil, if_true, Option.elim_some, List.nil_append]
      rfl

theorem exists_parts_floatText {mantissa : Nat} {exponent : Int}
    (h : Double.Canonical (.finite negative mantissa exponent)) :
    ∃ p : Parts, p.IsProper ∧ p.fraction ≠ [] ∧
      floatText (.finite negative mantissa exponent) = signed negative p.text ∧
      p.value negative = .finite negative mantissa exponent := by
  rcases Double.exists_parts_render h with ⟨p, hproper, htext, hvalue⟩
  have hcs : (Double.finite negative mantissa exponent).render.toList = signed negative p.text := by
    rw [htext, String.toList_ofList]
  have hfraction : (pointed p).fraction ≠ [] := by
    rw [pointed]
    split
    · exact List.cons_ne_nil _ _
    · rename_i hne
      exact fun hnil => hne (List.isEmpty_iff.mpr hnil)
  refine ⟨pointed p, isProper_pointed hproper, hfraction, ?_, (value_pointed p negative).trans hvalue⟩
  simp only [floatText, hcs]
  -- Only a number with an exponent can be without a fraction; it has no point, so one is put in.
  by_cases hnone : p.fraction = []
  · have hletter : 'e' ∈ p.text := by
      rcases Option.isSome_iff_exists.mp (hproper.notWhole.resolve_left fun hne => hne hnone) with
        ⟨power, hpower⟩
      simp [Parts.text, hpower]
    have hpoint : '.' ∉ p.text := by
      rw [Parts.text, hnone, List.mem_append, not_or]
      refine ⟨notMem_of_isDigit hproper.whole (by decide), ?_⟩
      cases p.exponent with
      | none => exact List.not_mem_nil
      | some power =>
          exact List.not_mem_cons_of_ne_of_not_mem (by decide) (notMem_exponentText rfl (by decide))
    cases negative with
    | true =>
        rw [if_pos (by simp [signed, hletter, hpoint])]
        exact congrArg ('-' :: ·) (insertPoint_text hproper hnone)
    | false =>
        rw [if_pos (by simp [signed, hletter, hpoint])]
        exact insertPoint_text hproper hnone
  · have hpoint : '.' ∈ p.text := by simp [Parts.text, hnone]
    have hsame : pointed p = p := by rw [pointed, if_neg (by simpa using hnone)]
    cases negative with
    | true => rw [if_neg (by simp [signed, hpoint]), hsame]
    | false => rw [if_neg (by simp [signed, hpoint]), hsame]

end Numbers

/-!
## Words are no markup
-/

/-- A word that stands for a value is not empty, can do without quotes and has no blank. -/
theorem word?_spec {v : Value} {cs : List Char} (h : word? v = some cs) (hv : IsReadable v) :
    cs ≠ [] ∧ Style.allowsPlain cs = true ∧ ∀ ch ∈ cs, CharClass.of ch = .letter := by
  have hnumber : ∀ (negative : Bool) {d : Char} {tail : List Char}, d.isDigit = true →
      (∀ c ∈ d :: tail, c ∈ numericChars) → signed negative (d :: tail) ≠ [] ∧
        Style.allowsPlain (signed negative (d :: tail)) = true ∧
        ∀ ch ∈ signed negative (d :: tail), CharClass.of ch = .letter := by
    intro negative d tail hd htail
    refine ⟨?_, allowsPlain_signed negative hd htail,
      fun ch hch => letter_of_numeric (numeric_signed negative htail ch hch)⟩
    cases negative with
    | true => exact List.cons_ne_nil _ _
    | false => exact List.cons_ne_nil _ _
  cases v with
  | null =>
      cases h
      decide
  | bool b =>
      cases h
      cases b <;> decide
  | int i =>
      have hdigits : ∀ c ∈ Nat.toDigits 10 i.natAbs, c.isDigit = true :=
        fun c hc => Numeral.isDigit_of_mem_toDigits hc
      rcases List.exists_cons_of_ne_nil (Nat.toDigits_ne_nil (n := i.natAbs) (b := 10)) with
        ⟨d, tail, hcons⟩
      rw [word?, Numeral.toList_toString, hcons] at h
      rw [hcons] at hdigits
      cases h
      exact hnumber _ (hdigits d List.mem_cons_self)
        fun c hc => Numeral.mem_numericChars_of_isDigit (hdigits c hc)
  | float d =>
      rw [word?] at h
      cases h
      cases d with
      | nan => decide
      | infinite negative => cases negative <;> decide
      | finite negative mantissa exponent =>
          rcases exists_parts_floatText hv with ⟨p, hproper, -, htext, -⟩
          rcases hproper.exists_cons with ⟨d, tail, hcons, hd⟩
          rw [htext, hcons]
          exact hnumber negative hd (hcons ▸ Decimal.numeric_text hproper)
  | str s => cases h
  | list items => cases h
  | map entries => cases h

/-!
## What words are taken for
-/

namespace Implicit

variable {negative : Bool} {d : Char} {tail cs : List Char}

theorem unsigned_signed (negative : Bool) (hd : d.isDigit = true) :
    unsigned (signed negative (d :: tail)) = d :: tail := by
  cases negative with
  | true => rfl
  | false =>
      show unsigned (d :: tail) = _
      unfold unsigned
      split
      · rename_i heq
        rw [(List.cons.inj heq).1] at hd
        cases hd
      · rename_i heq
        rw [(List.cons.inj heq).1] at hd
        cases hd
      · rfl

theorem not_boolWord_signed (negative : Bool) (hd : d.isDigit = true) :
    boolWords.contains (signed negative (d :: tail)) = false := by
  have hall : ∀ word ∈ boolWords, word.head?.any (fun c => c.isDigit || c == '-') = false := by decide
  rw [List.contains_eq_mem, decide_eq_false_iff_not]
  intro hmem
  have hletter := hall _ hmem
  cases negative with
  | true => cases hletter
  | false =>
      have hdigit : (d.isDigit || d == '-') = true := by rw [hd, Bool.true_or]
      exact absurd (hletter.symm.trans hdigit) Bool.false_ne_true

theorem isDigitOrLine_of_isDigit (h : d.isDigit = true) : isDigitOrLine d = true := by
  rw [isDigitOrLine, h, Bool.true_or]

theorem dropWhile_digits (hcs : ∀ c ∈ cs, c.isDigit = true) (rest : List Char) :
    (cs ++ rest).dropWhile isDigitOrLine = rest.dropWhile isDigitOrLine :=
  List.dropWhile_append_of_pos fun c hc => isDigitOrLine_of_isDigit (hcs c hc)

theorem isFloat_digits (negative : Bool) (h : ∀ c ∈ d :: tail, c.isDigit = true) :
    isFloat (signed negative (d :: tail)) = false := by
  rcases List.forall_mem_cons.mp h with ⟨hd, htail⟩
  have hspan : spanNumber Char.isDigit (d :: tail) = some [] := by
    have hdropped := dropWhile_digits htail []
    rw [List.append_nil] at hdropped
    rw [spanNumber, if_pos hd, hdropped]
    rfl
  have hword : ∀ words : List String, (∀ word ∈ words, word.toList.head? = some '.') →
      ∀ body : List Char, body.head? ≠ some '.' → words.any (·.toList == body) = false := by
    intro words hwords body hbody
    rw [List.any_eq_false]
    rintro word hword heq
    exact hbody (eq_of_beq heq ▸ hwords word hword)
  have hpoint : d ≠ '.' := by
    rintro rfl
    cases hd
  have hsigned : (signed negative (d :: tail)).head? ≠ some '.' := by
    cases negative with
    | true => simp [signed]
    | false => simpa [signed] using hpoint
  have hpointed : ∀ rest, signed negative (d :: tail) ≠ '.' :: rest := by
    intro rest heq
    rw [heq] at hsigned
    exact hsigned rfl
  unfold isFloat
  simp only [unsigned_signed negative hd, hspan, List.length_nil, afterSixties,
    hword [".inf", ".Inf", ".INF"] (by decide) (d :: tail) (by simpa using hpoint),
    hword [".nan", ".NaN", ".NAN"] (by decide) _ hsigned, Bool.or_false]

theorem isInt_digits (negative : Bool) (h : ∀ c ∈ d :: tail, c.isDigit = true)
    (hzero : d :: tail = ['0'] ∨ d ≠ '0') : isInt (signed negative (d :: tail)) = true := by
  rcases List.forall_mem_cons.mp h with ⟨hd, htail⟩
  have hdropped := dropWhile_digits htail []
  rw [List.append_nil] at hdropped
  have hspan : spanNumber Char.isDigit (d :: tail) = some [] := by
    rw [spanNumber, if_pos hd, hdropped]
    rfl
  rw [isInt, unsigned_signed negative hd]
  rcases hzero with heq | hne
  · rw [heq]
    rfl
  · split
    · rfl
    · rename_i heq
      exact absurd (List.cons.inj heq).1 hne
    · rename_i heq
      exact absurd (List.cons.inj heq).1 hne
    · rename_i heq
      exact absurd (List.cons.inj heq).1 hne
    · rw [hspan]

theorem sortOf_digits (negative : Bool) (h : ∀ c ∈ d :: tail, c.isDigit = true)
    (hzero : d :: tail = ['0'] ∨ d ≠ '0') : sortOf (signed negative (d :: tail)) = .int := by
  rw [sortOf, not_boolWord_signed negative (h d List.mem_cons_self), isFloat_digits negative h,
    isInt_digits negative h hzero]
  rfl

theorem isExponentOrEnd_exponent (exponent : Option Int) :
    isExponentOrEnd (exponent.elim [] fun power => 'e' :: Double.exponentText power) = true := by
  cases exponent with
  | none => rfl
  | some power =>
      rcases Double.exponentText_eq power with ⟨zeros, hzeros⟩
      have hdigits : (List.replicate zeros '0' ++ Nat.toDigits 10 power.natAbs).all Char.isDigit =
          true := by
        rw [List.all_eq_true]
        exact List.forall_mem_append.mpr ⟨Double.isDigit_zeros zeros,
          fun d hd => Numeral.isDigit_of_mem_toDigits hd⟩
      rw [Option.elim_some, hzeros, isExponentOrEnd, hdigits]
      have hne : (List.replicate zeros '0' ++ Nat.toDigits 10 power.natAbs).isEmpty = false := by
        simp [Nat.toDigits_ne_nil]
      rw [hne]
      split <;> rfl

/-- A number with a fraction is taken for one. -/
theorem sortOf_parts (negative : Bool) {p : Parts} (h : p.IsProper) (hfraction : p.fraction ≠ []) :
    sortOf (signed negative p.text) = .float := by
  obtain ⟨behind, hbehind⟩ : ∃ behind, behind =
      p.exponent.elim [] fun power => 'e' :: Double.exponentText power := ⟨_, rfl⟩
  have hexponent : isExponentOrEnd behind = true := hbehind ▸ isExponentOrEnd_exponent p.exponent
  have hstop : behind.dropWhile isDigitOrLine = behind := by
    rw [hbehind]
    cases p.exponent with
    | none => rfl
    | some power => rfl
  rcases List.exists_cons_of_ne_nil h.ne_nil with ⟨d, whole, hwhole⟩
  rcases List.forall_mem_cons.mp (hwhole ▸ h.whole) with ⟨hd, hdigits⟩
  have htext : p.text = d :: (whole ++ '.' :: (p.fraction ++ behind)) := by
    rw [Parts.text, if_neg (by simpa using hfraction), hwhole, hbehind]
    rfl
  have hspan : spanNumber Char.isDigit p.text = some ('.' :: (p.fraction ++ behind)) := by
    rw [htext, spanNumber, if_pos hd, dropWhile_digits hdigits]
    rfl
  have hfloat : isFloat (signed negative p.text) = true := by
    have hunsigned : unsigned (signed negative p.text) = p.text := by
      rw [htext]
      exact unsigned_signed negative hd
    unfold isFloat
    simp only [hunsigned, hspan, dropWhile_digits h.fraction, hstop, hexponent, Bool.true_or]
  rw [sortOf, hfloat]
  rw [htext, not_boolWord_signed negative hd]
  rfl

end Implicit

/-!
## Words are read back
-/

namespace Meaning

variable {negative : Bool} {bound level : Nat} {start : Mark} {text : String} {datum : Datum}

theorem withoutSign_signed (negative : Bool) {d : Char} {tail : List Char} (hd : d.isDigit = true)
    (htail : ∀ c ∈ d :: tail, c ∈ numericChars) :
    withoutSign (String.ofList (signed negative (d :: tail))) = .ok (negative, d :: tail) := by
  have hall : ∀ c ∈ numericChars, (c != '_') = true := by decide
  have hkept : (signed negative (d :: tail)).filter (· != '_') = signed negative (d :: tail) :=
    List.filter_eq_self.mpr fun c hc => hall c (numeric_signed negative htail c hc)
  have hsplit : Numeral.splitSign (signed negative (d :: tail)) = (negative, d :: tail) :=
    Numeral.splitSign_signed negative hd
  rw [withoutSign, String.toList_ofList, hkept]
  cases negative with
  | true => exact congrArg Except.ok hsplit
  | false => exact congrArg Except.ok hsplit

theorem intOf_toString {i : Int} (h : IsReadable (.int i)) :
    intOf (String.ofList (toString i).toList) = .ok (.scalar (.int i)) := by
  have hdigits : ∀ c ∈ Nat.toDigits 10 i.natAbs, c.isDigit = true :=
    fun c hc => Numeral.isDigit_of_mem_toDigits hc
  have hparse : decimalOf (Nat.toDigits 10 i.natAbs) = .ok (i.natAbs : Int) := by
    rw [decimalOf, Numeral.parse_toDigits h]
  have hcolon : (Nat.toDigits 10 i.natAbs).contains ':' = false := by
    rw [List.contains_eq_mem, decide_eq_false_iff_not]
    exact notMem_of_isDigit hdigits (by decide)
  have hsize : sizeOf_ (Nat.toDigits 10 i.natAbs) = .ok (i.natAbs : Int) := by
    rcases Nat.eq_zero_or_pos i.natAbs with hzero | hpos
    · rw [hzero]
      rfl
    · have hfirst := Numeral.head?_toDigits_ne hpos
      unfold sizeOf_
      split
      · rename_i heq
        exact absurd heq Nat.toDigits_ne_nil
      · rename_i heq
        exact absurd (by rw [heq]; rfl) hfirst
      · rename_i heq
        exact absurd (by rw [heq]; rfl) hfirst
      · rename_i heq
        exact absurd (by rw [heq]; rfl) hfirst
      · rename_i heq
        exact absurd (by rw [heq]; rfl) hfirst
      · rw [hcolon, if_neg Bool.false_ne_true, hparse]
  rcases List.exists_cons_of_ne_nil (Nat.toDigits_ne_nil (n := i.natAbs) (b := 10)) with
    ⟨d, tail, hcons⟩
  rw [hcons] at hdigits hsize
  have hsign := withoutSign_signed (decide (i < 0)) (hdigits d List.mem_cons_self)
    fun c hc => Numeral.mem_numericChars_of_isDigit (hdigits c hc)
  rw [intOf, Numeral.toList_toString, hcons, hsign]
  simp only [bind, Except.bind, hsize, decide_eq_true_eq, Numeral.signed_natAbs]

/-- The text of a number with a fraction is read as the number. -/
theorem floatOf_floatText {d : Double} (h : d.Canonical) :
    floatOf (String.ofList (floatText d)) = .ok (.scalar (.float d)) := by
  cases d with
  | nan => rfl
  | infinite negative => cases negative <;> rfl
  | finite negative mantissa exponent =>
      rcases exists_parts_floatText h with ⟨p, hproper, -, htext, hvalue⟩
      have hnumeric := Decimal.numeric_text hproper
      have hparse : numberOf p.text = .ok (p.value false) := by
        rw [numberOf, Decimal.parse?_parts hproper]
        rfl
      have hneg : (if negative then (p.value false).neg else p.value false) = p.value negative := by
        cases negative with
        | true => exact Double.neg_ofDecimal _ _
        | false => rfl
      have hlower : Text.lower (String.ofList (signed negative p.text)) =
          String.ofList (signed negative p.text) := by
        rw [Text.lower, String.toList_ofList, lowerAfter_numeric (numeric_signed negative hnumeric)]
      have hcolon : p.text.contains ':' = false := by
        rw [List.contains_eq_mem, decide_eq_false_iff_not]
        exact fun hmem => absurd (hnumeric ':' hmem) (by decide)
      rcases hproper.exists_cons with ⟨c, tail, hcons, hc⟩
      have hpoint : ∀ rest : List Char, (p.text == '.' :: rest) = false := by
        intro rest
        rw [hcons, beq_eq_false_iff_ne]
        rintro heq
        rw [(List.cons.inj heq).1] at hc
        cases hc
      have hsign : withoutSign (String.ofList (signed negative p.text)) = .ok (negative, p.text) := by
        rw [hcons]
        exact withoutSign_signed negative hc (hcons ▸ hnumeric)
      have hinf : (p.text == ".inf".toList) = false := hpoint _
      have hnan : (p.text == ".nan".toList) = false := hpoint _
      rw [htext, floatOf, hlower, hsign]
      simp only [bind, Except.bind, hinf, hnan, hcolon, Bool.false_eq_true, if_false, hparse, hneg,
        hvalue]

/-- How the text of a truth value, a number or nothing is read. -/
def reader : Sort_ → Option (String → Except Fault Datum)
  | .null => some fun _ => .ok (.scalar .null)
  | .bool => some boolOf
  | .int => some intOf
  | .float => some floatOf
  | _ => none

theorem construct_scalar {sort : Sort_} {read : String → Except Fault Datum}
    (hsort : reader sort = some read) (hread : read text = .ok datum) :
    construct (bound + 1) level (.scalar (Node.tagOfSort sort) text start) = .ok datum := by
  have hnull : Kind.ofTag? (Node.tagOfSort .null) = some .null := by decide
  have hbool : Kind.ofTag? (Node.tagOfSort .bool) = some .bool := by decide
  have hint : Kind.ofTag? (Node.tagOfSort .int) = some .int := by decide
  have hfloat : Kind.ofTag? (Node.tagOfSort .float) = some .float := by decide
  have hmap : ∀ {tag : String} {read : String → Except Fault Datum}, read text = .ok datum →
      (((textOf bound (.scalar tag text start)).bind read).mapError fun fault => (level, fault)) =
        .ok datum := by
    intro tag read hread
    rw [textOf]
    exact congrArg (Except.mapError _) hread
  cases sort with
  | null =>
      cases hsort
      simp only [construct, Node.tag, hnull]
      exact hmap hread
  | bool =>
      cases hsort
      simp only [construct, Node.tag, hbool]
      exact hmap hread
  | int =>
      cases hsort
      simp only [construct, Node.tag, hint]
      exact hmap hread
  | float =>
      cases hsort
      simp only [construct, Node.tag, hfloat]
      exact hmap hread
  | str | merge | timestamp | value | indicator => cases hsort

/-- The word for a value is read as the value. -/
theorem construct_word {v : Value} {cs : List Char} (h : word? v = some cs) (hv : IsReadable v)
    (bound level : Nat) (start : Mark) :
    construct (bound + 1) level
      (.scalar (Node.tagOfSort (Implicit.sortOf cs)) (String.ofList cs) start) = .ok (.scalar v) := by
  cases v with
  | null =>
      cases h
      exact construct_scalar rfl rfl
  | bool b =>
      cases h
      cases b with
      | true => exact construct_scalar rfl rfl
      | false => exact construct_scalar rfl rfl
  | int i =>
      have hdigits : ∀ c ∈ Nat.toDigits 10 i.natAbs, c.isDigit = true :=
        fun c hc => Numeral.isDigit_of_mem_toDigits hc
      have hzero : Nat.toDigits 10 i.natAbs = ['0'] ∨ (Nat.toDigits 10 i.natAbs).head? ≠ some '0' := by
        rcases Nat.eq_zero_or_pos i.natAbs with heq | hpos
        · exact Or.inl (by rw [heq]; rfl)
        · exact Or.inr (Numeral.head?_toDigits_ne hpos)
      rcases List.exists_cons_of_ne_nil (Nat.toDigits_ne_nil (n := i.natAbs) (b := 10)) with
        ⟨d, tail, hcons⟩
      have hsort : Implicit.sortOf (toString i).toList = .int := by
        rw [hcons] at hdigits hzero
        rw [Numeral.toList_toString, hcons]
        exact Implicit.sortOf_digits _ hdigits (hzero.imp_right fun hne heq => hne (heq ▸ rfl))
      cases h
      rw [hsort]
      exact construct_scalar rfl (intOf_toString hv)
  | float d =>
      cases h
      have hsort : Implicit.sortOf (floatText d) = .float := by
        cases d with
        | nan => decide
        | infinite negative => cases negative <;> decide
        | finite negative mantissa exponent =>
            rcases exists_parts_floatText hv with ⟨p, hproper, hfraction, htext, -⟩
            rw [htext]
            exact Implicit.sortOf_parts negative hproper hfraction
      rw [hsort]
      exact construct_scalar rfl (floatOf_floatText hv)
  | str s => cases h
  | list items => cases h
  | map entries => cases h

end Meaning

end Yaml
end Roster
