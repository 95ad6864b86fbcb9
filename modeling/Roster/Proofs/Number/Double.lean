import Mathlib.Algebra.Order.Field.Power
import Mathlib.Algebra.Order.Floor.Semifield
import Mathlib.Data.Int.Log
import Mathlib.Data.Rat.Floor
import Mathlib.Tactic.FieldSimp
import Mathlib.Tactic.NormNum
import Mathlib.Tactic.Positivity
import Mathlib.Tactic.Ring
import Roster.Number.Double

/-!
# Rounding to binary numbers

The number nearest to a quotient depends on the value of the quotient alone, and a value that is a
number already is rounded to itself.  So the digits of a decimal may end in zeros, whatever its
power.
-/

namespace Roster
namespace Double

/-!
## The exponent of a quotient
-/

theorem zpow_le_div_iff (num : Nat) {den : Nat} (hden : 0 < den) (e : Int) :
    (2 : ℚ) ^ e ≤ (num : ℚ) / den ↔
      if 0 ≤ e then den * 2 ^ e.toNat ≤ num else den ≤ num * 2 ^ (-e).toNat := by
  have hpositive : (0 : ℚ) < den := by exact_mod_cast hden
  rw [le_div_iff₀ hpositive]
  by_cases he : 0 ≤ e
  · obtain ⟨n, rfl⟩ := Int.eq_ofNat_of_zero_le he
    rw [if_pos he, zpow_natCast, Int.toNat_natCast, mul_comm]
    exact_mod_cast Iff.rfl
  · obtain ⟨n, hn⟩ := Int.eq_ofNat_of_zero_le (show 0 ≤ -e by omega)
    have hroom : (0 : ℚ) < 2 ^ n := by positivity
    rw [if_neg he, hn, Int.toNat_natCast, show e = -(n : Int) by omega, zpow_neg, zpow_natCast,
      ← div_eq_inv_mul, div_le_iff₀ hroom]
    exact_mod_cast Iff.rfl

/-- The leading powers of two of both parts bound the quotient. -/
theorem div_bounds {num den : Nat} (hnum : 0 < num) (hden : 0 < den) :
    (2 : ℚ) ^ ((num.log2 : Int) - den.log2 - 1) < (num : ℚ) / den ∧
      (num : ℚ) / den < (2 : ℚ) ^ ((num.log2 : Int) - den.log2 + 1) := by
  have hlow : (2 : ℚ) ^ num.log2 ≤ num := by exact_mod_cast Nat.log2_self_le hnum.ne'
  have hhigh : (num : ℚ) < 2 ^ (num.log2 + 1) := by exact_mod_cast Nat.lt_log2_self (n := num)
  have hlowDen : (2 : ℚ) ^ den.log2 ≤ den := by exact_mod_cast Nat.log2_self_le hden.ne'
  have hhighDen : (den : ℚ) < 2 ^ (den.log2 + 1) := by exact_mod_cast Nat.lt_log2_self (n := den)
  have hpositive : (0 : ℚ) < den := by exact_mod_cast hden
  have hbelow : (2 : ℚ) ^ ((num.log2 : Int) - den.log2 - 1) =
      2 ^ num.log2 / 2 ^ (den.log2 + 1) := by
    rw [sub_sub, zpow_sub₀ (by norm_num), zpow_natCast]
    exact_mod_cast rfl
  have habove : (2 : ℚ) ^ ((num.log2 : Int) - den.log2 + 1) =
      2 ^ (num.log2 + 1) / 2 ^ den.log2 := by
    rw [sub_add_eq_add_sub, zpow_sub₀ (by norm_num), zpow_natCast]
    exact_mod_cast rfl
  rw [hbelow, habove, div_lt_div_iff₀ (by positivity) hpositive,
    div_lt_div_iff₀ hpositive (by positivity)]
  constructor
  · calc (2 : ℚ) ^ num.log2 * den ≤ num * den := by gcongr
      _ < num * 2 ^ (den.log2 + 1) := by gcongr
  · calc (num : ℚ) * 2 ^ den.log2 ≤ num * den := by gcongr
      _ < 2 ^ (num.log2 + 1) * den := by gcongr

theorem log_eq {r : ℚ} (hr : 0 < r) {e : Int} (hlow : (2 : ℚ) ^ e ≤ r)
    (hhigh : r < (2 : ℚ) ^ (e + 1)) : Int.log 2 r = e := by
  have hle := (Int.zpow_le_iff_le_log (b := 2) (by decide) hr).mp (by exact_mod_cast hlow)
  have hlt := (Int.lt_zpow_iff_log_lt (b := 2) (by decide) hr).mp (by exact_mod_cast hhigh)
  omega

/-- The exponent brings the leading power of two of the quotient to the front of the mantissa. -/
theorem exponentFor_eq {num den : Nat} (hnum : 0 < num) (hden : 0 < den) :
    exponentFor num den = max minExponent (Int.log 2 ((num : ℚ) / den) - 52) := by
  have hratio : (0 : ℚ) < (num : ℚ) / den :=
    div_pos (by exact_mod_cast hnum) (by exact_mod_cast hden)
  rcases div_bounds hnum hden with ⟨hlow, hhigh⟩
  have hiff := zpow_le_div_iff num hden (num.log2 - den.log2)
  have hreached : (if 0 ≤ (num.log2 : Int) - den.log2 then
      decide (den * Nat.pow 2 ((num.log2 : Int) - den.log2).toNat ≤ num)
      else decide (den ≤ num * Nat.pow 2 (-((num.log2 : Int) - den.log2)).toNat)) =
        decide ((2 : ℚ) ^ ((num.log2 : Int) - den.log2) ≤ (num : ℚ) / den) := by
    by_cases hguess : 0 ≤ (num.log2 : Int) - den.log2
    · rw [if_pos hguess] at hiff ⊢
      exact decide_eq_decide.mpr hiff.symm
    · rw [if_neg hguess] at hiff ⊢
      exact decide_eq_decide.mpr hiff.symm
  unfold exponentFor
  simp only [hreached, decide_eq_true_eq]
  split
  · rename_i hle
    rw [log_eq hratio hle hhigh]
  · rename_i hlt
    rw [log_eq hratio hlow.le (by rw [sub_add_cancel]; exact not_le.mp hlt)]

/-!
## Quotients of the same value
-/

theorem roundQuotient_mul_left {k : Nat} (hk : 0 < k) (num den : Nat) :
    roundQuotient (k * num) (k * den) = roundQuotient num den := by
  have hswap : 2 * (k * (num % den)) = k * (2 * (num % den)) := by ring
  have hlt : ∀ a b : Nat, k * a < k * b ↔ a < b := fun a b => Nat.mul_lt_mul_left hk
  simp only [roundQuotient, Nat.mul_div_mul_left _ _ hk, Nat.mul_mod_mul_left, hswap, hlt]

theorem exponentFor_mul_left {k num den : Nat} (hk : 0 < k) (hnum : 0 < num) (hden : 0 < den) :
    exponentFor (k * num) (k * den) = exponentFor num den := by
  have hratio : ((k * num : Nat) : ℚ) / (k * den : Nat) = (num : ℚ) / den := by
    have hne : (k : ℚ) ≠ 0 := by exact_mod_cast hk.ne'
    rw [Nat.cast_mul, Nat.cast_mul, mul_div_mul_left _ _ hne]
  rw [exponentFor_eq (Nat.mul_pos hk hnum) (Nat.mul_pos hk hden), exponentFor_eq hnum hden, hratio]

theorem ofQuotient_mul_left (negative : Bool) {k den : Nat} (hk : 0 < k) (num : Nat)
    (hden : 0 < den) : ofQuotient negative (k * num) (k * den) = ofQuotient negative num den := by
  rcases Nat.eq_zero_or_pos num with rfl | hnum
  · simp [ofQuotient]
  · have hne : k * num ≠ 0 := (Nat.mul_pos hk hnum).ne'
    unfold ofQuotient
    simp only [if_neg hne, if_neg hnum.ne', exponentFor_mul_left hk hnum hden, mul_assoc,
      roundQuotient_mul_left hk]

/-!
## Values that are numbers
-/

theorem roundQuotient_mul_self {den : Nat} (hden : 0 < den) (whole : Nat) :
    roundQuotient (whole * den) den = whole := by
  simp [roundQuotient, Nat.mul_div_cancel _ hden, hden]

theorem max_log_eq {mantissa : Nat} {exponent : Int} {negative : Bool}
    (h : Canonical (.finite negative mantissa exponent)) (hne : mantissa ≠ 0) :
    max minExponent (Int.log 2 ((mantissa : ℚ) * 2 ^ exponent) - 52) = exponent := by
  rcases h with ⟨hsmall, hmin, -, hfull⟩
  have hmantissa : (0 : ℚ) < mantissa := by exact_mod_cast Nat.pos_of_ne_zero hne
  have hpower : (0 : ℚ) < 2 ^ exponent := by positivity
  have hvalue := mul_pos hmantissa hpower
  have habove : Int.log 2 ((mantissa : ℚ) * 2 ^ exponent) < exponent + 53 := by
    rw [← Int.lt_zpow_iff_log_lt (by decide) hvalue, zpow_add₀ (by norm_num), mul_comm]
    have hcast : (mantissa : ℚ) < 2 ^ (53 : Int) := by exact_mod_cast hsmall
    exact mul_lt_mul_of_pos_left hcast hpower
  rcases hfull with hleast | hlarge
  · have hbound : Int.log 2 ((mantissa : ℚ) * 2 ^ exponent) - 52 ≤ minExponent := by omega
    rw [max_eq_left hbound, hleast]
  · have hbelow : exponent + 52 ≤ Int.log 2 ((mantissa : ℚ) * 2 ^ exponent) := by
      rw [← Int.zpow_le_iff_le_log (by decide) hvalue, zpow_add₀ (by norm_num), mul_comm]
      have hcast : (2 : ℚ) ^ (52 : Int) ≤ mantissa := by exact_mod_cast hlarge
      exact mul_le_mul_of_nonneg_right hcast hpower.le
    have hlog : Int.log 2 ((mantissa : ℚ) * 2 ^ exponent) - 52 = exponent := by omega
    rw [hlog, max_eq_right hmin]

/-- A quotient with the value of a number is rounded to the number. -/
theorem ofQuotient_eq {negative : Bool} {num den mantissa : Nat} {exponent : Int} (hden : 0 < den)
    (h : Canonical (.finite negative mantissa exponent)) (hne : mantissa ≠ 0)
    (hvalue : (num : ℚ) / den = mantissa * 2 ^ exponent) :
    ofQuotient negative num den = .finite negative mantissa exponent := by
  have hpositive : (den : ℚ) ≠ 0 := by exact_mod_cast hden.ne'
  have hmantissa : (mantissa : ℚ) ≠ 0 := by exact_mod_cast hne
  have hnum : num ≠ 0 := by
    rintro rfl
    rw [Nat.cast_zero, zero_div] at hvalue
    exact mul_ne_zero hmantissa (by positivity) hvalue.symm
  have hexponent : exponentFor num den = exponent := by
    rw [exponentFor_eq (Nat.pos_of_ne_zero hnum) hden, hvalue, max_log_eq h hne]
  rw [div_eq_iff hpositive] at hvalue
  -- With the right exponent the quotient is a whole number, so nothing is rounded.
  have hrounded : (if 0 ≤ exponent then roundQuotient num (den * Nat.pow 2 exponent.toNat)
      else roundQuotient (num * Nat.pow 2 (-exponent).toNat) den) = mantissa := by
    simp only [Nat.pow_eq]
    split
    · rename_i he
      obtain ⟨n, rfl⟩ := Int.eq_ofNat_of_zero_le he
      have hnat : num = mantissa * (den * 2 ^ n) := by
        rw [zpow_natCast] at hvalue
        have hcast : (num : ℚ) = ((mantissa * (den * 2 ^ n) : Nat) : ℚ) := by
          push_cast
          rw [hvalue]
          ring
        exact_mod_cast hcast
      rw [Int.toNat_natCast, hnat, roundQuotient_mul_self (Nat.mul_pos hden (Nat.two_pow_pos n))]
    · rename_i he
      obtain ⟨n, hn⟩ := Int.eq_ofNat_of_zero_le (show 0 ≤ -exponent by omega)
      have hnat : num * 2 ^ n = mantissa * den := by
        rw [show exponent = -(n : Int) by omega, zpow_neg, zpow_natCast] at hvalue
        have hcast : ((num * 2 ^ n : Nat) : ℚ) = ((mantissa * den : Nat) : ℚ) := by
          push_cast
          rw [hvalue]
          field_simp
        exact_mod_cast hcast
      rw [hn, Int.toNat_natCast, hnat, roundQuotient_mul_self hden]
  have hsmall : ¬mantissa = Nat.pow 2 53 := h.1.ne
  have hrange : ¬maxExponent < exponent := not_lt.mpr h.2.2.1
  unfold ofQuotient
  simp only [if_neg hnum, hexponent, hrounded, if_neg hsmall, if_neg hrange]

/-!
## Decimals
-/

theorem length_toDigits_mul_ten {n : Nat} (hn : 0 < n) :
    (Nat.toDigits 10 (n * 10)).length = (Nat.toDigits 10 n).length + 1 := by
  rw [Nat.toDigits_of_base_le (by decide) (by omega), List.length_append,
    Nat.mul_div_cancel _ (by decide), List.length_singleton]

theorem ofDecimal_mul_ten (negative : Bool) (digits : Nat) (power : Int) :
    ofDecimal negative (digits * 10) power = ofDecimal negative digits (power + 1) := by
  rcases Nat.eq_zero_or_pos digits with rfl | hdigits
  · simp [ofDecimal]
  · have hne : digits * 10 ≠ 0 := by omega
    have hsize : (((Nat.toDigits 10 (digits * 10)).length : Nat) : Int) + power =
        ((Nat.toDigits 10 digits).length : Nat) + (power + 1) := by
      rw [length_toDigits_mul_ten hdigits]
      push_cast
      ring
    have hvalue : (if 0 ≤ power then ofQuotient negative (digits * 10 * Nat.pow 10 power.toNat) 1
        else ofQuotient negative (digits * 10) (Nat.pow 10 (-power).toNat)) =
          if 0 ≤ power + 1 then ofQuotient negative (digits * Nat.pow 10 (power + 1).toNat) 1
          else ofQuotient negative digits (Nat.pow 10 (-(power + 1)).toNat) := by
      simp only [Nat.pow_eq]
      by_cases hpower : 0 ≤ power
      · have hnext : (power + 1).toNat = power.toNat + 1 := by omega
        rw [if_pos hpower, if_pos (by omega), hnext, pow_succ, mul_assoc, mul_comm 10]
      · rw [if_neg hpower, mul_comm digits 10]
        by_cases hlast : power = -1
        · subst hlast
          have hscaled := ofQuotient_mul_left negative (k := 10) (by decide) digits Nat.one_pos
          simpa using hscaled
        · have hnext : (-power).toNat = (-(power + 1)).toNat + 1 := by omega
          rw [if_neg (by omega), hnext, pow_succ, mul_comm _ 10,
            ofQuotient_mul_left negative (by decide) digits (by positivity)]
    unfold ofDecimal
    simp only [if_neg hne, if_neg hdigits.ne', hsize, hvalue]

theorem ofDecimal_mul_pow (negative : Bool) (digits zeros : Nat) (power : Int) :
    ofDecimal negative (digits * 10 ^ zeros) power = ofDecimal negative digits (power + zeros) := by
  induction zeros generalizing power with
  | zero => simp
  | succ zeros ih =>
      rw [pow_succ, ← mul_assoc, ofDecimal_mul_ten, ih]
      congr 1
      push_cast
      ring

end Double
end Roster
