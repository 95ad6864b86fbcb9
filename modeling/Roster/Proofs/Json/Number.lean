import Mathlib.Data.List.TakeWhile
import Roster.Json.Reader
import Roster.Json.Writer
import Roster.Proofs.Number.Layout

/-!
# Numbers in a document are read back

However the digits of a number are laid out, with zeros, a point or an exponent, the reader finds
the decimal from which they were made.
-/

namespace Roster
namespace Json

open Numeral (signed)

/-!
## Digits
-/

/-- Behind a number comes a comma or a line end, if anything. -/
def EndsNumber (rest : List Char) : Prop :=
  ∀ c ∈ rest.head?, c = ',' ∨ c = '\n'

theorem EndsNumber.head_ne {rest : List Char} (h : EndsNumber rest) :
    ∀ c ∈ rest.head?, c.isDigit = false ∧ c ≠ '.' ∧ c ≠ 'e' ∧ c ≠ 'E' := by
  intro c hc
  rcases h c hc with rfl | rfl
  · decide
  · decide

theorem spanDigits_append {digits rest : List Char} (hdigits : ∀ c ∈ digits, c.isDigit = true)
    (hrest : ∀ c ∈ rest.head?, c.isDigit = false) :
    spanDigits (digits ++ rest) = (digits, rest) := by
  have hnone : rest.takeWhile Char.isDigit = [] ∧ rest.dropWhile Char.isDigit = rest := by
    cases rest with
    | nil => exact ⟨rfl, rfl⟩
    | cons c tail => simp [hrest c rfl]
  rw [spanDigits, List.span_eq_takeWhile_dropWhile, List.takeWhile_append_of_pos hdigits,
    List.dropWhile_append_of_pos hdigits, hnone.1, hnone.2, List.append_nil]

theorem digitsValue_eq (cs : List Char) : digitsValue cs = Nat.ofDigitChars 10 cs 0 :=
  Numeral.ofDigits_digits cs

theorem digitsValue_toDigits (n : Nat) : digitsValue (Nat.toDigits 10 n) = n := by
  rw [digitsValue_eq, Nat.ofDigitChars_ten_toDigits]

theorem digitsValue_zeros_append (count : Nat) (cs : List Char) :
    digitsValue (List.replicate count '0' ++ cs) = digitsValue cs := by
  rw [digitsValue_eq, digitsValue_eq, Nat.ofDigitChars_append, Nat.ofDigitChars_replicate_zero,
    mul_zero]

/-!
## Parts of a number
-/

theorem readWhole_append {digits rest : List Char} (hdigits : ∀ c ∈ digits, c.isDigit = true)
    (hne : digits ≠ []) (hhead : digits.head? ≠ some '0')
    (hrest : ∀ c ∈ rest.head?, c.isDigit = false) :
    readWhole (digits ++ rest) = some (digits, rest) := by
  cases digits with
  | nil => exact absurd rfl hne
  | cons c tail =>
      have hc : c ≠ '0' := fun heq => hhead (congrArg some heq)
      have hspan := spanDigits_append hdigits hrest
      rw [List.cons_append] at hspan ⊢
      unfold readWhole
      split
      · rename_i heq
        exact absurd (List.cons.inj heq).1 hc
      · rw [hspan]

theorem readFraction_point {digits rest : List Char} (hdigits : ∀ c ∈ digits, c.isDigit = true)
    (hne : digits ≠ []) (hrest : ∀ c ∈ rest.head?, c.isDigit = false) :
    readFraction ('.' :: (digits ++ rest)) = (digits, rest) := by
  rw [readFraction, spanDigits_append hdigits hrest]
  cases digits with
  | nil => exact absurd rfl hne
  | cons c tail => rfl

theorem readFraction_of_head {rest : List Char} (h : ∀ c ∈ rest.head?, c ≠ '.') :
    readFraction rest = ([], rest) := by
  unfold readFraction
  split
  · rename_i tail
    exact absurd rfl (h '.' rfl)
  · rfl

theorem readExponent_of_head {rest : List Char} (h : ∀ c ∈ rest.head?, c ≠ 'e' ∧ c ≠ 'E') :
    readExponent rest = none := by
  cases rest with
  | nil => rfl
  | cons c tail => simp [readExponent, h c rfl]

theorem readExponent_exponentText (e : Int) {rest : List Char}
    (hrest : ∀ c ∈ rest.head?, c.isDigit = false) :
    readExponent ('e' :: (Double.exponentText e ++ rest)) = some (e, rest) := by
  obtain ⟨zeros, hzeros⟩ := Double.exponentText_eq e
  have hdigits : ∀ c ∈ List.replicate zeros '0' ++ Nat.toDigits 10 e.natAbs,
      c.isDigit = true := by
    rw [List.forall_mem_append]
    refine ⟨fun c hc => ?_, fun c hc => Numeral.isDigit_of_mem_toDigits hc⟩
    rw [List.eq_of_mem_replicate hc]
    decide
  have hspan := spanDigits_append hdigits hrest
  have hvalue := digitsValue_zeros_append zeros (Nat.toDigits 10 e.natAbs)
  rw [digitsValue_toDigits] at hvalue
  have hsign : Numeral.splitSign ((if e < 0 then '-' else '+') ::
      (List.replicate zeros '0' ++ Nat.toDigits 10 e.natAbs ++ rest)) =
        (decide (e < 0), List.replicate zeros '0' ++ Nat.toDigits 10 e.natAbs ++ rest) := by
    by_cases he : e < 0
    · simp [he, Numeral.splitSign]
    · simp [he, Numeral.splitSign]
  rw [hzeros, List.cons_append, readExponent]
  simp only [hsign, hspan]
  cases hall : List.replicate zeros '0' ++ Nat.toDigits 10 e.natAbs with
  | nil => exact absurd (List.append_eq_nil_iff.mp hall).2 Nat.toDigits_ne_nil
  | cons c tail =>
      have hsigned : (if e < 0 then -(e.natAbs : Int) else e.natAbs) = e := by
        split
        · omega
        · omega
      rw [hall] at hvalue
      simp only [hvalue, decide_eq_true_eq, hsigned]
      rfl

/-!
## Numbers
-/

section Parts

variable {negative : Bool} {body whole fraction behindWhole behindFraction : List Char}

theorem readNumber_signed (hminus : body.head? ≠ some '-')
    (hwhole : readWhole body = some (whole, behindWhole))
    (hfraction : readFraction behindWhole = (fraction, behindFraction)) :
    readNumber (signed negative body) =
      match readExponent behindFraction with
      | some (power, rest) =>
          .ok (.float (.ofDecimal negative (digitsValue (whole ++ fraction))
            (power - fraction.length)), rest)
      | none =>
          if fraction.isEmpty then
            if Numeral.maxDigits < whole.length then
              .error ⟨.longNumeral whole.length, signed negative body⟩
            else
              .ok (.int (if negative then -(digitsValue whole : Int) else digitsValue whole),
                behindFraction)
          else
            .ok (.float (.ofDecimal negative (digitsValue (whole ++ fraction))
              (-(fraction.length : Int))), behindFraction) := by
  cases negative with
  | true =>
      change readNumber ('-' :: body) = _
      unfold readNumber
      simp only [hwhole, hfraction]
      rfl
  | false =>
      change readNumber body = _
      unfold readNumber
      split
      rename_i sign unsigned hsplit
      split at hsplit
      · exact absurd rfl hminus
      · rcases Prod.mk.inj hsplit with ⟨rfl, rfl⟩
        simp only [hwhole, hfraction]
        rfl

theorem readNumber_of_exponent {power : Int} {rest : List Char} (hminus : body.head? ≠ some '-')
    (hwhole : readWhole body = some (whole, behindWhole))
    (hfraction : readFraction behindWhole = (fraction, behindFraction))
    (hexponent : readExponent behindFraction = some (power, rest)) :
    readNumber (signed negative body) =
      .ok (.float (.ofDecimal negative (digitsValue (whole ++ fraction))
        (power - fraction.length)), rest) := by
  rw [readNumber_signed hminus hwhole hfraction, hexponent]

theorem readNumber_of_fraction (hminus : body.head? ≠ some '-')
    (hwhole : readWhole body = some (whole, behindWhole))
    (hfraction : readFraction behindWhole = (fraction, behindFraction)) (hne : fraction ≠ [])
    (hexponent : readExponent behindFraction = none) :
    readNumber (signed negative body) =
      .ok (.float (.ofDecimal negative (digitsValue (whole ++ fraction))
        (-(fraction.length : Int))), behindFraction) := by
  have hsome : fraction.isEmpty = false := List.isEmpty_eq_false_iff.mpr hne
  rw [readNumber_signed hminus hwhole hfraction, hexponent]
  simp only [hsome, Bool.false_eq_true, if_false]

end Parts

theorem head?_ne_of_isDigit {cs rest : List Char} (hdigits : ∀ c ∈ cs, c.isDigit = true)
    (hne : cs ≠ []) : (cs ++ rest).head? ≠ some '-' := by
  cases cs with
  | nil => exact absurd rfl hne
  | cons c tail =>
      intro heq
      have hdigit := hdigits c List.mem_cons_self
      rw [Option.some.inj heq] at hdigit
      cases hdigit

theorem readNumber_toDigits (negative : Bool) {n : Nat} {rest : List Char}
    (hshort : (Nat.toDigits 10 n).length ≤ Numeral.maxDigits) (hrest : EndsNumber rest) :
    readNumber (signed negative (Nat.toDigits 10 n ++ rest)) =
      .ok (.int (if negative then -(n : Int) else n), rest) := by
  have hhead := hrest.head_ne
  have hwhole : readWhole (Nat.toDigits 10 n ++ rest) = some (Nat.toDigits 10 n, rest) := by
    rcases Nat.eq_zero_or_pos n with rfl | hn
    · rfl
    · exact readWhole_append (fun c hc => Numeral.isDigit_of_mem_toDigits hc) Nat.toDigits_ne_nil
        (Numeral.head?_toDigits_ne hn) fun c hc => (hhead c hc).1
  have hfraction := readFraction_of_head fun c hc => (hhead c hc).2.1
  have hexponent := readExponent_of_head fun c hc => (hhead c hc).2.2
  have hminus : (Nat.toDigits 10 n ++ rest).head? ≠ some '-' :=
    head?_ne_of_isDigit (fun c hc => Numeral.isDigit_of_mem_toDigits hc) Nat.toDigits_ne_nil
  rw [readNumber_signed hminus hwhole hfraction, hexponent]
  simp only [List.isEmpty_nil, if_true, if_neg (Nat.not_lt.mpr hshort), digitsValue_toDigits]

/-!
## Texts of numbers
-/

section Texts

variable (negative : Bool) {rest : List Char}

/-- Digits in front of anything else are the whole part, a zero only alone. -/
theorem readWhole_parts {p : Double.Parts} (h : p.IsProper)
    (hrest : ∀ d ∈ rest.head?, d.isDigit = false) : readWhole (p.whole ++ rest) = some (p.whole, rest) := by
  rcases h.first with hzero | hfirst
  · rw [hzero]
    rfl
  · exact readWhole_append h.whole h.ne_nil hfirst hrest

theorem readNumber_parts {p : Double.Parts} (h : p.IsProper) (hrest : EndsNumber rest) :
    readNumber (signed negative (p.text ++ rest)) = .ok (.float (p.value negative), rest) := by
  -- The fraction ends where the exponent starts, or else what follows the number.
  obtain ⟨behind, hbehind⟩ : ∃ behind, behind =
      (p.exponent.elim [] fun power => 'e' :: Double.exponentText power) ++ rest := ⟨_, rfl⟩
  have hhead : ∀ d ∈ behind.head?, d.isDigit = false ∧ d ≠ '.' := by
    intro d hd
    rw [hbehind] at hd
    cases hexponent : p.exponent with
    | none =>
        rw [hexponent] at hd
        exact ⟨(hrest.head_ne d hd).1, (hrest.head_ne d hd).2.1⟩
    | some power =>
        rw [hexponent] at hd
        exact Option.some.inj hd ▸ by decide
  have hfraction : readFraction ((if p.fraction.isEmpty then [] else '.' :: p.fraction) ++ behind) =
      (p.fraction, behind) := by
    split
    · rename_i hnone
      rw [List.isEmpty_iff.mp hnone]
      exact readFraction_of_head fun d hd => (hhead d hd).2
    · rename_i hsome
      exact readFraction_point h.fraction (fun hnil => hsome (List.isEmpty_iff.mpr hnil))
        fun d hd => (hhead d hd).1
  have hpoint : ∀ d ∈ ((if p.fraction.isEmpty then [] else '.' :: p.fraction) ++ behind).head?,
      d.isDigit = false := by
    split
    · exact fun d hd => (hhead d hd).1
    · exact fun d hd => Option.some.inj hd ▸ rfl
  have hwhole := readWhole_parts h hpoint
  have hminus : (p.whole ++ ((if p.fraction.isEmpty then [] else '.' :: p.fraction) ++ behind)).head? ≠
      some '-' := head?_ne_of_isDigit h.whole h.ne_nil
  rw [Double.Parts.text, List.append_assoc, List.append_assoc, ← hbehind, Double.Parts.value,
    ← digitsValue_eq]
  cases hexponent : p.exponent with
  | some power =>
      have hread : readExponent behind = some (power, rest) := by
        rw [hbehind, hexponent]
        exact readExponent_exponentText power fun d hd => (hrest.head_ne d hd).1
      exact readNumber_of_exponent hminus hwhole hfraction hread
  | none =>
      rw [hexponent] at hbehind
      have hread : readExponent behind = none :=
        hbehind ▸ readExponent_of_head fun d hd => (hrest.head_ne d hd).2.2
      have hne : p.fraction ≠ [] := h.notWhole.resolve_right (by simp [hexponent])
      rw [readNumber_of_fraction hminus hwhole hfraction hne hread, hbehind, Option.getD_none,
        Int.zero_sub]
      rfl

theorem readAtom_signed {d : Char} {tail : List Char} (hd : d.isDigit = true) :
    readAtom (signed negative (d :: tail)) = readNumber (signed negative (d :: tail)) := by
  have hnone : (['n', 't', 'f', 'N', 'I', '-'].all fun c => !c.isDigit) = true := by decide
  have hletters : ∀ c ∈ ['n', 't', 'f', 'N', 'I', '-'], c ≠ d := by
    rintro c hc rfl
    have hletter := List.all_eq_true.mp hnone c hc
    rw [hd] at hletter
    cases hletter
  have hnone : names.find? (fun name => name.1.isPrefixOf (signed negative (d :: tail))) = none := by
    simp only [List.mem_cons, List.not_mem_nil, or_false, forall_eq_or_imp, forall_eq] at hletters
    cases negative with
    | true => simp [names, signed, hletters]
    | false => simp [names, signed, hletters]
  rw [readAtom, hnone]

/-- A finite number is read back from its text. -/
theorem readAtom_render {mantissa : Nat} {exponent : Int}
    (hcanonical : Double.Canonical (.finite negative mantissa exponent))
    (hrest : EndsNumber rest) :
    readAtom ((Double.finite negative mantissa exponent).render.toList ++ rest) =
      .ok (.float (.finite negative mantissa exponent), rest) := by
  rcases Double.exists_parts_render hcanonical with ⟨p, hproper, htext, hvalue⟩
  rcases hproper.exists_cons with ⟨d, tail, hcons, hd⟩
  have hread := readNumber_parts negative hproper hrest
  rw [hvalue, hcons, List.cons_append] at hread
  rw [htext, String.toList_ofList, Numeral.signed_append, hcons, List.cons_append, readAtom_signed negative hd,
    hread]

theorem readAtom_toString {i : Int}
    (hshort : (Nat.toDigits 10 i.natAbs).length ≤ Numeral.maxDigits) (hrest : EndsNumber rest) :
    readAtom ((toString i).toList ++ rest) = .ok (.int i, rest) := by
  have htext : (toString i).toList ++ rest =
      signed (decide (i < 0)) (Nat.toDigits 10 i.natAbs ++ rest) := by
    rw [Numeral.toList_toString, Numeral.signed_append]
  have hvalue : (if decide (i < 0) then -(i.natAbs : Int) else i.natAbs) = i := by
    simpa only [decide_eq_true_eq] using Numeral.signed_natAbs i
  obtain ⟨d, tail, hd⟩ :=
    List.exists_cons_of_ne_nil (Nat.toDigits_ne_nil (n := i.natAbs) (b := 10))
  have hdigit : d.isDigit = true :=
    Numeral.isDigit_of_mem_toDigits (n := i.natAbs) (by rw [hd]; exact List.mem_cons_self)
  have hread := readNumber_toDigits (decide (i < 0)) hshort hrest
  rw [htext]
  rw [hvalue, hd, List.cons_append] at hread
  rw [hd, List.cons_append, readAtom_signed _ hdigit, hread]

end Texts

end Json
end Roster
