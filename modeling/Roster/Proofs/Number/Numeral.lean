import Mathlib.Data.List.Basic
import Mathlib.Data.List.Induction
import Mathlib.Tactic.NormNum
import Roster.Number.Numeral

/-!
# Digits of numerals

A whole number is written with as many digits as its size needs, without a zero in front, and
another number is written otherwise.  What a numeral says has no more digits than the numeral.
-/

namespace Roster

/-- What holds of every character of a text is decided by going through the text. -/
instance decidableForallMemChar (p : Char → Prop) [DecidablePred p] (cs : List Char) :
    Decidable (∀ c ∈ cs, p c) := List.decidableBAll p cs

namespace Numeral

/-!
## Written numbers
-/

theorem toString_nat_inj {m n : Nat} (h : toString m = toString n) : m = n := by
  rw [Nat.toString_eq_ofList_toDigits, Nat.toString_eq_ofList_toDigits, String.ofList_inj] at h
  have hvalue := congrArg (fun digits => Nat.ofDigitChars 10 digits 0) h
  simpa using hvalue

theorem length_toDigits_le {n k : Nat} (hk : 0 < k) (h : n < 10 ^ k) :
    (Nat.toDigits 10 n).length ≤ k :=
  (Nat.length_toDigits_le_iff (by decide) hk).mpr h

theorem isDigit_of_mem_toDigits {n : Nat} {c : Char} (h : c ∈ Nat.toDigits 10 n) :
    c.isDigit = true :=
  Nat.isDigit_of_mem_toDigits (by decide) (by decide) h

theorem head?_toDigits_ne {n : Nat} (hn : 0 < n) : (Nat.toDigits 10 n).head? ≠ some '0' := by
  induction n using Nat.strong_induction_on with
  | h n ih =>
    rw [Nat.toDigits_eq_if (by decide)]
    split
    · rename_i hlt
      have hall : ∀ d : Fin 10, 0 < d.val → Nat.digitChar d ≠ '0' := by decide
      intro hzero
      exact hall ⟨n, hlt⟩ hn (Option.some.inj hzero)
    · rename_i hge
      rw [List.head?_append_of_ne_nil _ Nat.toDigits_ne_nil]
      exact ih (n / 10) (by omega) (by omega)

/-!
## Numerals that are read
-/

theorem digitValue?_lt {c : Char} {d : Nat} (h : Text.digitValue? c = some d) : d < 10 := by
  unfold Text.digitValue? at h
  split at h
  · rename_i hdigit
    rw [Char.isDigit, Bool.and_eq_true, decide_eq_true_eq, decide_eq_true_eq] at hdigit
    have hle : c.toNat ≤ 57 := hdigit.2
    have heq := Option.some.inj h
    omega
  · rcases Option.map_eq_some_iff.mp h with ⟨start, hstart, rfl⟩
    have hrange := List.find?_some hstart
    rw [Bool.and_eq_true, decide_eq_true_eq, decide_eq_true_eq] at hrange
    omega

theorem digits?_lt {afterDigit : Bool} {cs : List Char} {digits : List Nat}
    (h : digits? afterDigit cs = some digits) : ∀ d ∈ digits, d < 10 := by
  induction cs generalizing afterDigit digits with
  | nil =>
      rw [digits?] at h
      split at h
      · cases h
        exact fun d hd => nomatch hd
      · cases h
  | cons c rest ih =>
      unfold digits? at h
      split at h
      · rename_i hnil
        cases hnil
      · rename_i hline
        split at h
        · exact ih ((List.cons.inj hline).2 ▸ h)
        · cases h
      · rename_i hcons
        rcases List.cons.inj hcons with ⟨rfl, rfl⟩
        split at h
        · rename_i value hvalue
          rcases Option.map_eq_some_iff.mp h with ⟨more, hmore, rfl⟩
          rw [List.forall_mem_cons]
          exact ⟨digitValue?_lt hvalue, ih hmore⟩
        · cases h

theorem ofDigits_lt {digits : List Nat} (h : ∀ d ∈ digits, d < 10) :
    ofDigits 10 digits < 10 ^ digits.length := by
  induction digits using List.reverseRecOn with
  | nil => exact Nat.one_pos
  | append_singleton front last ih =>
      rw [List.forall_mem_append] at h
      have hfront := ih h.1
      have hlast := h.2 last List.mem_cons_self
      rw [ofDigits] at hfront ⊢
      rw [List.foldl_append, List.foldl_cons, List.foldl_nil, List.length_append,
        List.length_singleton, pow_succ]
      omega

theorem natAbs_signed (negative : Bool) (n : Nat) :
    (if negative then -(n : Int) else n).natAbs = n := by
  cases negative with
  | true => exact Int.natAbs_neg n
  | false => rfl

theorem length_parse {cs : List Char} {i : Int} (h : parse cs = .ok i) :
    (Nat.toDigits 10 i.natAbs).length ≤ maxDigits := by
  unfold parse at h
  dsimp only at h
  split at h
  · cases h
  · rename_i digits hdigits
    split at h
    · cases h
    · rename_i hshort
      cases h
      rw [natAbs_signed]
      refine length_toDigits_le (by decide) ?_
      calc ofDigits 10 digits < 10 ^ digits.length := ofDigits_lt (digits?_lt hdigits)
        _ ≤ 10 ^ maxDigits := Nat.pow_le_pow_right (by decide) (Nat.not_lt.mp hshort)

end Numeral
end Roster
