import Roster.Number.Decimal
import Roster.Proofs.Number.Shortest

/-!
# The parts of a written number

However the digits of a number are laid out, with zeros, a point or an exponent, its text has a
whole part, a fraction and an exponent, and these give the decimal from which it was made.  The
digits of a whole number, and the parts of any other number, are parsed as the number that they
give.
-/

namespace Roster

namespace Numeral

/-- A number with its sign in front. -/
def signed (negative : Bool) (body : List Char) : List Char :=
  if negative then '-' :: body else body

theorem signed_append (negative : Bool) (body rest : List Char) :
    signed negative body ++ rest = signed negative (body ++ rest) := by
  cases negative <;> rfl

theorem ofDigits_digits (cs : List Char) :
    ofDigits 10 (cs.map fun c => c.toNat - 48) = Nat.ofDigitChars 10 cs 0 := by
  rw [ofDigits, Nat.ofDigitChars_eq_foldl, List.foldl_map]
  simp only [mul_comm]
  rfl

theorem toList_toString (i : Int) :
    (toString i).toList = signed (decide (i < 0)) (Nat.toDigits 10 i.natAbs) := by
  rw [Int.toString_eq_repr, Int.repr_eq_if]
  by_cases hi : i < 0
  · have habs : (-i).toNat = i.natAbs := by omega
    rw [if_neg (by omega), habs]
    simp [signed, hi]
  · have habs : i.toNat = i.natAbs := by omega
    rw [if_pos (by omega), habs]
    simp [signed, hi]

theorem signed_natAbs (i : Int) : (if i < 0 then -(i.natAbs : Int) else i.natAbs) = i := by
  split
  · omega
  · omega

end Numeral

namespace Double

theorem exponentText_eq (e : Int) : ∃ zeros, exponentText e =
    (if e < 0 then '-' else '+') :: (List.replicate zeros '0' ++ Nat.toDigits 10 e.natAbs) := by
  by_cases hshort : (Nat.toDigits 10 e.natAbs).length < 2
  · refine ⟨1, ?_⟩
    simp only [exponentText, if_pos hshort]
    rfl
  · refine ⟨0, ?_⟩
    simp only [exponentText, if_neg hshort]
    rfl

/-- The parts of a number: the digits in front of the point and behind it, and the exponent. -/
structure Parts where
  whole : List Char
  fraction : List Char := []
  exponent : Option Int := none

namespace Parts

/-- The parts written one behind the other. -/
def text (p : Parts) : List Char :=
  p.whole ++ ((if p.fraction.isEmpty then [] else '.' :: p.fraction) ++
    p.exponent.elim [] fun power => 'e' :: exponentText power)

/-- The number that the parts give. -/
def value (p : Parts) (negative : Bool) : Double :=
  ofDecimal negative (Nat.ofDigitChars 10 (p.whole ++ p.fraction) 0)
    (p.exponent.getD 0 - p.fraction.length)

/-- Digits stand where they should, no zero is needless in front, and the number is not whole. -/
structure IsProper (p : Parts) : Prop where
  whole : ∀ d ∈ p.whole, d.isDigit = true
  ne_nil : p.whole ≠ []
  first : p.whole = ['0'] ∨ p.whole.head? ≠ some '0'
  fraction : ∀ d ∈ p.fraction, d.isDigit = true
  notWhole : p.fraction ≠ [] ∨ p.exponent.isSome = true

theorem IsProper.exists_cons {p : Parts} (h : p.IsProper) :
    ∃ d tail, p.text = d :: tail ∧ d.isDigit = true := by
  rcases List.exists_cons_of_ne_nil h.ne_nil with ⟨d, tail, hwhole⟩
  exact ⟨d, _, by rw [text, hwhole]; rfl, h.whole d (hwhole ▸ List.mem_cons_self)⟩

end Parts

section Layout

variable {c : Decimal}

theorem isDigit_zeros (count : Nat) : ∀ d ∈ List.replicate count '0', d.isDigit = true := by
  intro d hd
  rw [List.eq_of_mem_replicate hd]
  decide

theorem value_small {zeros : Nat}
    (hzeros : c.power = -((zeros + (Nat.toDigits 10 c.digits).length : Nat) : Int)) (negative : Bool) :
    Parts.value ⟨['0'], List.replicate zeros '0' ++ Nat.toDigits 10 c.digits, none⟩ negative =
      ofDecimal negative c.digits c.power := by
  rw [Parts.value, ← List.append_assoc, ← List.replicate_one, List.replicate_append_replicate,
    Nat.ofDigitChars_append, Nat.ofDigitChars_replicate_zero, mul_zero, Nat.ofDigitChars_ten_toDigits,
    List.length_append, List.length_replicate, hzeros]
  congr 1
  simp

theorem value_large {zeros : Nat} (hzeros : c.power = zeros) (negative : Bool) :
    Parts.value ⟨Nat.toDigits 10 c.digits ++ List.replicate zeros '0', ['0'], none⟩ negative =
      ofDecimal negative c.digits c.power := by
  have hvalue : Nat.ofDigitChars 10 (Nat.toDigits 10 c.digits ++ List.replicate zeros '0' ++ ['0']) 0 =
      c.digits * 10 ^ (zeros + 1) := by
    rw [List.append_assoc, ← List.replicate_one, List.replicate_append_replicate,
      Nat.ofDigitChars_append, Nat.ofDigitChars_replicate_zero, Nat.ofDigitChars_ten_toDigits, mul_comm]
  rw [Parts.value, hvalue, ofDecimal_mul_pow, hzeros]
  congr 1
  simp

theorem value_split {count : Nat} {exponent : Option Int}
    (hpower : c.power = exponent.getD 0 - (((Nat.toDigits 10 c.digits).length - count : Nat) : Int))
    (negative : Bool) :
    Parts.value ⟨(Nat.toDigits 10 c.digits).take count, (Nat.toDigits 10 c.digits).drop count,
      exponent⟩ negative = ofDecimal negative c.digits c.power := by
  rw [Parts.value, List.take_append_drop, Nat.ofDigitChars_ten_toDigits, List.length_drop, hpower]

/-- However a decimal is laid out, its parts give it back. -/
theorem exists_parts_layout (hpositive : 0 < c.digits) :
    ∃ p : Parts, p.IsProper ∧ layout c = p.text ∧
      ∀ negative, p.value negative = ofDecimal negative c.digits c.power := by
  have hdigits : ∀ d ∈ Nat.toDigits 10 c.digits, d.isDigit = true :=
    fun d hd => Numeral.isDigit_of_mem_toDigits hd
  have hne : Nat.toDigits 10 c.digits ≠ [] := Nat.toDigits_ne_nil
  have hfirst := Numeral.head?_toDigits_ne hpositive
  have hlength : 0 < (Nat.toDigits 10 c.digits).length := Nat.length_toDigits_pos
  have htake : ∀ {count : Nat}, 0 < count → (∀ d ∈ (Nat.toDigits 10 c.digits).take count,
      d.isDigit = true) ∧ (Nat.toDigits 10 c.digits).take count ≠ [] ∧
      ((Nat.toDigits 10 c.digits).take count).head? ≠ some '0' := by
    intro count hcount
    refine ⟨fun d hd => hdigits d (List.mem_of_mem_take hd), ?_, ?_⟩
    · rw [Ne, List.take_eq_nil_iff, not_or]
      exact ⟨hcount.ne', hne⟩
    · rw [List.head?_take, if_neg hcount.ne']
      exact hfirst
  have hdrop : ∀ count, ∀ d ∈ (Nat.toDigits 10 c.digits).drop count, d.isDigit = true :=
    fun count d hd => hdigits d (List.mem_of_mem_drop hd)
  obtain ⟨lead, hlead⟩ : ∃ lead, lead = c.power + ((Nat.toDigits 10 c.digits).length : Int) - 1 :=
    ⟨_, rfl⟩
  -- The place of the leading digit decides where the point goes, and whether there is an exponent.
  unfold layout
  simp only [← hlead]
  split
  · split
    · rename_i hsmall
      refine ⟨⟨['0'], List.replicate (-lead - 1).toNat '0' ++ Nat.toDigits 10 c.digits, none⟩,
        ⟨List.forall_mem_singleton.mpr rfl, List.cons_ne_nil _ _, Or.inl rfl,
          List.forall_mem_append.mpr ⟨isDigit_zeros _, hdigits⟩, Or.inl (by simp [hne])⟩,
          by simp [Parts.text, hne], value_small (by omega)⟩
    · rename_i hlarge
      split
      · rename_i hfew
        refine ⟨⟨Nat.toDigits 10 c.digits ++
            List.replicate (lead.toNat + 1 - (Nat.toDigits 10 c.digits).length) '0', ['0'], none⟩,
          ⟨List.forall_mem_append.mpr ⟨hdigits, isDigit_zeros _⟩, by simp [hne], Or.inr ?_, by simp,
            Or.inl (by simp)⟩, by simp [Parts.text], value_large (by omega)⟩
        rw [List.head?_append_of_ne_nil _ hne]
        exact hfirst
      · rename_i hmany
        have hback : (Nat.toDigits 10 c.digits).drop (lead.toNat + 1) ≠ [] := by
          rw [Ne, List.drop_eq_nil_iff]
          omega
        rcases htake (Nat.succ_pos lead.toNat) with ⟨hfront, hfrontNe, hfrontFirst⟩
        exact ⟨⟨(Nat.toDigits 10 c.digits).take (lead.toNat + 1),
            (Nat.toDigits 10 c.digits).drop (lead.toNat + 1), none⟩,
          ⟨hfront, hfrontNe, Or.inr hfrontFirst, hdrop _, Or.inl hback⟩,
          by simp [Parts.text, hback], value_split (by simp only [Option.getD_none]; omega)⟩
  · rcases htake Nat.one_pos with ⟨hfront, hfrontNe, hfrontFirst⟩
    exact ⟨⟨(Nat.toDigits 10 c.digits).take 1, (Nat.toDigits 10 c.digits).drop 1, some lead⟩,
      ⟨hfront, hfrontNe, Or.inr hfrontFirst, hdrop _, Or.inr rfl⟩,
      by simp [Parts.text], value_split (by simp only [Option.getD_some]; omega)⟩

end Layout

/-- A finite number is written with its sign and parts that give it back. -/
theorem exists_parts_render {negative : Bool} {mantissa : Nat} {exponent : Int}
    (h : Canonical (.finite negative mantissa exponent)) :
    ∃ p : Parts, p.IsProper ∧
      (Double.finite negative mantissa exponent).render = String.ofList (Numeral.signed negative p.text) ∧
      p.value negative = .finite negative mantissa exponent := by
  rw [render]
  by_cases hzero : mantissa = 0
  · subst hzero
    have hexponent : exponent = minExponent := h.2.2.2.resolve_right (by decide)
    rw [hexponent, if_pos rfl]
    exact ⟨⟨['0'], ['0'], none⟩, ⟨by decide, by decide, Or.inl rfl, by decide, Or.inl (by decide)⟩,
      rfl, rfl⟩
  · rcases exists_parts_layout (shortest_digits_pos h hzero) with ⟨p, hproper, htext, hvalue⟩
    rw [if_neg hzero, htext]
    exact ⟨p, hproper, rfl, (hvalue negative).trans (ofDecimal_shortest h hzero)⟩

end Double

/-!
## Written numbers are parsed
-/

namespace Numeral

variable {c : Char} {cs rest : List Char} {n : Nat}

/-- The characters of numbers: digits, the point, the letter of an exponent and signs. -/
def numericChars : List Char := "0123456789.e+-".toList

theorem mem_numericChars_of_isDigit (h : c.isDigit = true) : c ∈ numericChars := by
  rw [Char.isDigit, Bool.and_eq_true, decide_eq_true_eq, decide_eq_true_eq] at h
  have hlow : 48 ≤ c.toNat := UInt32.le_iff_toNat_le.mp h.1
  have hhigh : c.toNat ≤ 57 := UInt32.le_iff_toNat_le.mp h.2
  have hall : ∀ n, 48 ≤ n → n ≤ 57 → Char.ofNat n ∈ numericChars := by decide
  rw [← Char.ofNat_toNat c]
  exact hall c.toNat hlow hhigh

theorem isMargin_eq_false (h : c ∈ numericChars) : isMargin c = false := by
  have hall : ∀ c ∈ numericChars, isMargin c = false := by decide
  exact hall c h

theorem trim_eq_self (h : ∀ c ∈ cs, c ∈ numericChars) :
    ((cs.dropWhile isMargin).reverse.dropWhile isMargin).reverse = cs := by
  have hkeep : ∀ cs : List Char, (∀ c ∈ cs, c ∈ numericChars) → cs.dropWhile isMargin = cs := by
    intro cs hcs
    cases cs with
    | nil => rfl
    | cons c rest =>
        rw [List.dropWhile_cons_of_neg]
        rw [isMargin_eq_false (hcs c List.mem_cons_self)]
        exact Bool.false_ne_true
  rw [hkeep cs h, hkeep cs.reverse fun c hc => h c (List.mem_reverse.mp hc), List.reverse_reverse]

theorem splitSign_of_isDigit (h : c.isDigit = true) : splitSign (c :: rest) = (false, c :: rest) := by
  have hminus : c ≠ '-' := by
    rintro rfl
    cases h
  have hplus : c ≠ '+' := by
    rintro rfl
    cases h
  unfold splitSign
  split
  · rename_i heq
    exact absurd (List.cons.inj heq).1 hminus
  · rename_i heq
    exact absurd (List.cons.inj heq).1 hplus
  · rfl

theorem splitSign_signed (negative : Bool) (h : c.isDigit = true) :
    splitSign (signed negative (c :: rest)) = (negative, c :: rest) := by
  cases negative with
  | true => rfl
  | false => exact splitSign_of_isDigit h

theorem digitValue?_of_isDigit (h : c.isDigit = true) :
    Text.digitValue? c = some (c.toNat - 48) := if_pos h

theorem digits?_of_isDigit (h : ∀ c ∈ cs, c.isDigit = true) {afterDigit : Bool}
    (hsome : afterDigit = true ∨ cs ≠ []) :
    digits? afterDigit cs = some (cs.map fun c => c.toNat - 48) := by
  induction cs generalizing afterDigit with
  | nil =>
      rw [digits?, if_pos (hsome.resolve_right fun hne => hne rfl)]
      rfl
  | cons c rest ih =>
      rcases List.forall_mem_cons.mp h with ⟨hc, hrest⟩
      have hline : c ≠ '_' := by
        rintro rfl
        cases hc
      rw [digits?, digitValue?_of_isDigit hc]
      · simp only [ih hrest (Or.inl rfl), Option.map_some, List.map_cons]
      · exact hline

theorem parse_toDigits (h : (Nat.toDigits 10 n).length ≤ maxDigits) :
    parse (Nat.toDigits 10 n) = .ok (n : Int) := by
  have hdigits : ∀ c ∈ Nat.toDigits 10 n, c.isDigit = true := fun c hc => isDigit_of_mem_toDigits hc
  have htrim := trim_eq_self fun c hc => mem_numericChars_of_isDigit (hdigits c hc)
  have hread : digits? false (Nat.toDigits 10 n) = _ :=
    digits?_of_isDigit hdigits (Or.inr Nat.toDigits_ne_nil)
  rcases List.exists_cons_of_ne_nil (Nat.toDigits_ne_nil (n := n) (b := 10)) with ⟨c, rest, hcons⟩
  have hsign : splitSign (Nat.toDigits 10 n) = (false, Nat.toDigits 10 n) := by
    rw [hcons]
    exact splitSign_of_isDigit (hdigits c (hcons ▸ List.mem_cons_self))
  rw [parse]
  simp only [htrim, hsign, hread, List.length_map, if_neg (Nat.not_lt.mpr h), ofDigits_digits,
    Nat.ofDigitChars_ten_toDigits]
  rfl

end Numeral

namespace Double

theorem neg_zero : (zero false).neg = zero true := rfl

theorem neg_ofQuotient (num den : Nat) : (ofQuotient false num den).neg = ofQuotient true num den := by
  simp only [ofQuotient, apply_ite neg, neg_zero]
  rfl

theorem neg_ofDecimal (digits : Nat) (power : Int) :
    (ofDecimal false digits power).neg = ofDecimal true digits power := by
  simp only [ofDecimal, apply_ite neg, neg_zero, neg_ofQuotient]
  rfl

end Double

namespace Decimal

variable {digits rest : List Char}

theorem takeDigits_append (hdigits : ∀ c ∈ digits, c.isDigit = true)
    (hrest : ∀ c ∈ rest.head?, Text.digitValue? c = none) :
    takeDigits (digits ++ rest) = (digits.map (fun c => c.toNat - 48), rest) := by
  have htaken : (digits ++ rest).takeWhile (fun c => (Text.digitValue? c).isSome) = digits := by
    rw [List.takeWhile_append_of_pos fun c hc => by
      rw [Numeral.digitValue?_of_isDigit (hdigits c hc)]
      rfl]
    cases rest with
    | nil => rw [List.takeWhile_nil, List.append_nil]
    | cons c rest =>
        rw [List.takeWhile_cons_of_neg (by simp [hrest c rfl]), List.append_nil]
  have hvalues : digits.filterMap Text.digitValue? = digits.map fun c => c.toNat - 48 := by
    rw [← List.filterMap_eq_map]
    exact List.filterMap_congr fun c hc => Numeral.digitValue?_of_isDigit (hdigits c hc)
  rw [takeDigits]
  simp only [htaken, hvalues, List.drop_left]

theorem exponent?_exponentText (e : Int) : exponent? ('e' :: Double.exponentText e) = some e := by
  rcases Double.exponentText_eq e with ⟨zeros, hzeros⟩
  have hdigits : ∀ c ∈ List.replicate zeros '0' ++ Nat.toDigits 10 e.natAbs, c.isDigit = true :=
    List.forall_mem_append.mpr ⟨Double.isDigit_zeros zeros,
      fun c hc => Numeral.isDigit_of_mem_toDigits hc⟩
  have hsign : Numeral.splitSign (Double.exponentText e) =
      (decide (e < 0), List.replicate zeros '0' ++ Nat.toDigits 10 e.natAbs) := by
    rw [hzeros]
    by_cases he : e < 0
    · simp [he, Numeral.splitSign]
    · simp [he, Numeral.splitSign]
  have hnone : ∀ c ∈ ([] : List Char).head?, Text.digitValue? c = none := nofun
  have htaken := takeDigits_append hdigits hnone
  have hvalue : Nat.ofDigitChars 10 (List.replicate zeros '0' ++ Nat.toDigits 10 e.natAbs) 0 =
      e.natAbs := by
    rw [Nat.ofDigitChars_append, Nat.ofDigitChars_replicate_zero, mul_zero,
      Nat.ofDigitChars_ten_toDigits]
  rw [List.append_nil] at htaken
  simp only [exponent?, hsign, htaken, Numeral.ofDigits_digits, hvalue, decide_eq_true_eq,
    Numeral.signed_natAbs]
  simp

theorem numeric_text {p : Double.Parts} (h : p.IsProper) : ∀ c ∈ p.text, c ∈ Numeral.numericChars := by
  have hdigits : ∀ {cs : List Char}, (∀ c ∈ cs, c.isDigit = true) →
      ∀ c ∈ cs, c ∈ Numeral.numericChars :=
    fun hcs c hc => Numeral.mem_numericChars_of_isDigit (hcs c hc)
  rw [Double.Parts.text]
  refine List.forall_mem_append.mpr ⟨hdigits h.whole, List.forall_mem_append.mpr ⟨?_, ?_⟩⟩
  · split
    · exact nofun
    · exact List.forall_mem_cons.mpr ⟨by decide, hdigits h.fraction⟩
  · cases p.exponent with
    | none => exact nofun
    | some e =>
        rcases Double.exponentText_eq e with ⟨zeros, hzeros⟩
        rw [Option.elim_some, hzeros]
        refine List.forall_mem_cons.mpr ⟨by decide, List.forall_mem_cons.mpr ⟨?_, ?_⟩⟩
        · split <;> decide
        · exact hdigits (List.forall_mem_append.mpr ⟨Double.isDigit_zeros zeros,
            fun c hc => Numeral.isDigit_of_mem_toDigits hc⟩)

theorem map_toLower_eq_self {cs : List Char} (h : ∀ c ∈ cs, c ∈ Numeral.numericChars) :
    cs.map Char.toLower = cs := by
  have hall : ∀ c ∈ Numeral.numericChars, c.toLower = c := by decide
  exact (List.map_congr_left fun c hc => hall c (h c hc)).trans (List.map_id cs)

theorem word_ne {c first : Char} {cs : List Char} {word : String} (hc : c.isDigit = true)
    (hword : word.toList.head? = some first) (hfirst : first.isDigit = false) :
    (String.ofList (c :: cs) == word) = false := by
  rw [beq_eq_false_iff_ne]
  rintro rfl
  rw [String.toList_ofList] at hword
  rw [Option.some.inj hword, hfirst] at hc
  cases hc

theorem exponent?_optional (exponent : Option Int) :
    exponent? (exponent.elim [] fun power => 'e' :: Double.exponentText power) =
      some (exponent.getD 0) := by
  cases exponent with
  | none => rfl
  | some power => exact exponent?_exponentText power

theorem head?_optional (exponent : Option Int) :
    ∀ c ∈ (exponent.elim [] fun power => 'e' :: Double.exponentText power).head?,
      Text.digitValue? c = none ∧ c ≠ '.' := by
  intro c hc
  cases exponent with
  | none => cases hc
  | some power => exact Option.some.inj hc ▸ by decide

theorem takeDigits_text {p : Double.Parts} (h : p.IsProper) :
    takeDigits p.text = (p.whole.map (fun c => c.toNat - 48),
      (if p.fraction.isEmpty then [] else '.' :: p.fraction) ++
        p.exponent.elim [] fun power => 'e' :: Double.exponentText power) := by
  refine takeDigits_append h.whole fun c hc => ?_
  split at hc
  · exact (head?_optional p.exponent c hc).1
  · exact Option.some.inj hc ▸ by decide

/-- The parts of a number are parsed as the number that they give. -/
theorem parse?_parts {p : Double.Parts} (h : p.IsProper) :
    parse? p.text = some (p.value false) := by
  rcases h.exists_cons with ⟨d, tail, hcons, hd⟩
  have htrim := Numeral.trim_eq_self (numeric_text h)
  have hsign : Numeral.splitSign p.text = (false, p.text) := by
    rw [hcons]
    exact Numeral.splitSign_of_isDigit hd
  have hword : ∀ {first : Char} {word : String}, word.toList.head? = some first →
      first.isDigit = false → (String.ofList p.text == word) = false := by
    rw [hcons]
    exact fun hword hfirst => word_ne hd hword hfirst
  have hinf : (String.ofList p.text == "inf") = false := hword rfl (by decide)
  have hinfinity : (String.ofList p.text == "infinity") = false := hword rfl (by decide)
  have hnan : (String.ofList p.text == "nan") = false := hword rfl (by decide)
  have hwhole := takeDigits_text h
  have hsome : (p.whole.map fun c => c.toNat - 48).isEmpty = false := by simp [h.ne_nil]
  have hexponent := exponent?_optional p.exponent
  have hhead := head?_optional p.exponent
  have hfraction := takeDigits_append h.fraction fun c hc => (hhead c hc).1
  have hvalue : (Numeral.ofDigits 10 (p.whole.map (fun c => c.toNat - 48) ++
      p.fraction.map fun c => c.toNat - 48)) = Nat.ofDigitChars 10 (p.whole ++ p.fraction) 0 := by
    rw [← List.map_append, Numeral.ofDigits_digits]
  -- From here on only the start of the exponent matters, not how it is written.
  generalize p.exponent.elim [] (fun power => 'e' :: Double.exponentText power) = behind
    at hwhole hexponent hhead hfraction
  rw [parse?, Double.Parts.value, ← hvalue]
  simp only [htrim, hsign, unsigned?, map_toLower_eq_self (numeric_text h), hinf, hinfinity, hnan,
    Bool.or_self, Bool.false_eq_true, if_false, hwhole, hsome, Bool.false_and]
  cases hempty : p.fraction.isEmpty with
  | false =>
      rw [if_neg Bool.false_ne_true]
      simp only [List.cons_append, hfraction, hexponent, Option.map_some, List.length_map]
  | true =>
      rw [if_pos rfl, List.isEmpty_iff.mp hempty, List.nil_append]
      cases behind with
      | nil => simp only [hexponent, Option.map_some, List.map_nil, List.length_nil]
      | cons c rest =>
          have hc : c ≠ '.' := (hhead c rfl).2
          split
          · rename_i heq
            exact absurd (List.cons.inj heq).1 hc
          · simp only [hexponent, Option.map_some, List.map_nil, List.length_nil]

end Decimal
end Roster
