import Roster.Number.Shortest
import Roster.Proofs.Number.Double
import Roster.Proofs.Number.Numeral

/-!
# The shortest decimal stands for its number

Whatever the search for few digits finds, and the full expansion if it finds nothing, is rounded
to the number from which it was made.
-/

namespace Roster
namespace Double

/-!
## The full expansion
-/

theorem lt_length_toDigits {n k : Nat} (h : 10 ^ k ≤ n) : k < (Nat.toDigits 10 n).length := by
  rcases Nat.eq_zero_or_pos k with rfl | hk
  · exact Nat.length_toDigits_pos
  · exact not_le.mp fun hle => absurd ((Nat.length_toDigits_le_iff (by decide) hk).mp hle) (by omega)

/-- Digits behind the point are never so few that the number counts as out of range. -/
theorem lt_length_toDigits_mul_five {mantissa n : Nat} (hpositive : 0 < mantissa)
    (hbound : n ≤ 1074) : n < 400 + (Nat.toDigits 10 (mantissa * 5 ^ n)).length := by
  by_cases hfew : n < 400
  · omega
  · have hten : 10 ^ n = 5 ^ n * 2 ^ n := Nat.mul_pow 5 2 n
    have htwo : 2 ^ n ≤ 10 ^ 400 := by
      calc 2 ^ n ≤ 2 ^ 1074 := Nat.pow_le_pow_right (by decide) hbound
        _ ≤ 10 ^ 400 := by decide +kernel
    have hsplit : 10 ^ (n - 400) * 10 ^ 400 ≤ 5 ^ n * 10 ^ 400 := by
      rw [← pow_add, Nat.sub_add_cancel (by omega), hten]
      exact Nat.mul_le_mul_left _ htwo
    have hpower : 10 ^ (n - 400) ≤ mantissa * 5 ^ n :=
      (Nat.le_of_mul_le_mul_right hsplit (by positivity)).trans
        (Nat.le_mul_of_pos_left _ hpositive)
    have := lt_length_toDigits hpower
    omega

theorem ofDecimal_exactDecimal {negative : Bool} {mantissa : Nat} {exponent : Int}
    (h : Canonical (.finite negative mantissa exponent)) (hne : mantissa ≠ 0) :
    ofDecimal negative (exactDecimal mantissa exponent).digits
      (exactDecimal mantissa exponent).power = .finite negative mantissa exponent := by
  have hsmall : mantissa < 2 ^ 53 := h.1
  -- A negative power of two is written with as many powers of five over a power of ten.
  by_cases hexponent : 0 ≤ exponent
  · obtain ⟨n, rfl⟩ := Int.eq_ofNat_of_zero_le hexponent
    have hbound : n ≤ 971 := by
      have hmax : (n : Int) ≤ 971 := h.2.2.1
      omega
    have hdigits : mantissa * 2 ^ n < 10 ^ 400 := by
      calc mantissa * 2 ^ n ≤ 2 ^ 53 * 2 ^ 971 :=
            Nat.mul_le_mul hsmall.le (Nat.pow_le_pow_right (by decide) hbound)
        _ < 10 ^ 400 := by decide +kernel
    have hlength := Numeral.length_toDigits_le (by decide) hdigits
    have hpositive : mantissa * 2 ^ n ≠ 0 := by positivity
    have hvalue : ((mantissa * 2 ^ n * 10 ^ 0 : Nat) : ℚ) / (1 : Nat) =
        mantissa * 2 ^ (n : Int) := by
      push_cast
      rw [zpow_natCast]
      ring
    simp only [exactDecimal, if_pos hexponent, ofDecimal, Nat.pow_eq, Int.toNat_natCast,
      if_neg hpositive]
    rw [if_neg (by omega), if_neg (by omega), if_pos le_rfl]
    exact ofQuotient_eq Nat.one_pos h hne hvalue
  · obtain ⟨n, hn⟩ := Int.eq_ofNat_of_zero_le (show 0 ≤ -exponent by omega)
    obtain rfl : exponent = -(n : Int) := by omega
    have hbound : n ≤ 1074 := by
      have hmin : (-1074 : Int) ≤ -(n : Int) := h.2.1
      omega
    have hpositive : mantissa * 5 ^ n ≠ 0 := by positivity
    have hupper : mantissa * 5 ^ n < 10 ^ (n + 16) := by
      calc mantissa * 5 ^ n ≤ 2 ^ 53 * 10 ^ n :=
            Nat.mul_le_mul hsmall.le (Nat.pow_le_pow_left (by decide) n)
        _ < 10 ^ (n + 16) := by
            rw [pow_add, mul_comm]
            exact Nat.mul_lt_mul_of_pos_left (by norm_num) (by positivity)
    have hlower := lt_length_toDigits_mul_five (Nat.pos_of_ne_zero hne) hbound
    have hlength := Numeral.length_toDigits_le (by omega) hupper
    have hvalue : ((mantissa * 5 ^ n : Nat) : ℚ) / (10 ^ n : Nat) =
        mantissa * 2 ^ (-(n : Int)) := by
      push_cast
      rw [zpow_neg, zpow_natCast, show (10 : ℚ) ^ n = 5 ^ n * 2 ^ n by rw [← mul_pow]; norm_num]
      field_simp
    simp only [exactDecimal, if_neg hexponent, ofDecimal, Nat.pow_eq, neg_neg, Int.toNat_natCast,
      if_neg hpositive]
    rw [if_neg (by omega), if_neg (by omega)]
    exact ofQuotient_eq (by positivity) h hne hvalue

/-!
## Fewer digits
-/

theorem searchDecimal_spec {d : Double} {negative : Bool} {exact : Decimal}
    (h : ofDecimal negative exact.digits exact.power = d) (size tries count : Nat) :
    ofDecimal negative (searchDecimal d negative exact size tries count).digits
      (searchDecimal d negative exact size tries count).power = d := by
  induction tries generalizing count with
  | zero => exact h
  | succ tries ih =>
      rw [searchDecimal]
      split
      · rename_i found hfound
        have hread := List.find?_some hfound
        exact eq_of_beq hread
      · exact ih (count + 1)

theorem ofDecimal_dropZeros (negative : Bool) (bound : Nat) (c : Decimal) :
    ofDecimal negative (dropZeros bound c).digits (dropZeros bound c).power =
      ofDecimal negative c.digits c.power := by
  induction bound generalizing c with
  | zero => rfl
  | succ bound ih =>
      rw [dropZeros]
      split
      · rename_i hzero
        have hmod : c.digits % 10 = 0 := by simp_all
        rw [ih, ← ofDecimal_mul_ten, Nat.div_mul_cancel (Nat.dvd_of_mod_eq_zero hmod)]
      · rfl

/-- The shortest decimal of a number is rounded to the number. -/
theorem ofDecimal_shortest {negative : Bool} {mantissa : Nat} {exponent : Int}
    (h : Canonical (.finite negative mantissa exponent)) (hne : mantissa ≠ 0) :
    ofDecimal negative (shortest negative mantissa exponent).digits
      (shortest negative mantissa exponent).power = .finite negative mantissa exponent := by
  rw [shortest, ofDecimal_dropZeros]
  exact searchDecimal_spec (ofDecimal_exactDecimal h hne) _ 17 1

theorem shortest_digits_pos {negative : Bool} {mantissa : Nat} {exponent : Int}
    (h : Canonical (.finite negative mantissa exponent)) (hne : mantissa ≠ 0) :
    0 < (shortest negative mantissa exponent).digits := by
  refine Nat.pos_of_ne_zero fun hzero => ?_
  have hvalue := ofDecimal_shortest h hne
  rw [hzero] at hvalue
  simp only [ofDecimal, zero] at hvalue
  injection hvalue with _ hmantissa
  exact hne hmantissa.symm

end Double
end Roster
