import Mathlib.Data.List.Basic
import Roster.Json.Reader
import Roster.Json.Writer

/-!
# Texts in a document are read back

Every character is read from its own escape, a pair of units included, up to the closing quote.
-/

namespace Roster

/-!
## Units
-/

namespace Text

theorem hexPadded_one {n : Nat} (h : n < 16) : hexPadded 1 n = [n.digitChar] := by
  rw [hexPadded, hexDigits, Nat.toDigits_of_lt_base h]
  rfl

theorem hexPadded_succ {width : Nat} (hwidth : 0 < width) (n : Nat) :
    hexPadded (width + 1) n = hexPadded width (n / 16) ++ [(n % 16).digitChar] := by
  obtain ⟨less, rfl⟩ := Nat.exists_eq_add_one.mpr hwidth
  simp only [hexPadded, hexDigits]
  rw [Nat.toDigits_eq_if (by decide)]
  split
  · rename_i hlt
    have hzero : n / 16 = 0 := by omega
    have hrest : n % 16 = n := by omega
    rw [hzero, hrest, Nat.toDigits_zero]
    simp [List.replicate_succ']
  · rw [List.length_append, List.length_singleton, List.append_assoc]
    simp

end Text

namespace Json

theorem hexValue?_digitChar {d : Nat} (h : d < 16) : hexValue? d.digitChar = some d := by
  have hall : ∀ d : Fin 16, hexValue? (Nat.digitChar d) = some d.val := by decide
  exact hall ⟨d, h⟩

theorem readUnit_hexPadded {n : Nat} (h : n < 0x10000) (c : Char) (rest : List Char) :
    readUnit (Text.hexPadded 4 n ++ c :: rest) = some (n, c :: rest) := by
  have hdigits : Text.hexPadded 4 n = [(n / 16 / 16 / 16).digitChar, (n / 16 / 16 % 16).digitChar,
      (n / 16 % 16).digitChar, (n % 16).digitChar] := by
    rw [Text.hexPadded_succ (by decide), Text.hexPadded_succ (by decide),
      Text.hexPadded_succ (by decide), Text.hexPadded_one (by omega)]
    rfl
  rw [hdigits]
  simp only [List.cons_append, List.nil_append, readUnit,
    hexValue?_digitChar (show n / 16 / 16 / 16 < 16 by omega),
    hexValue?_digitChar (Nat.mod_lt _ (by decide : 16 > 0))]
  congr 2
  omega

theorem unitChar_toNat {c : Char} (h : c.toNat < 0x10000) : unitChar c.toNat = c := by
  have hvalid : c.toNat < 0xD800 ∨ 0xDFFF < c.toNat ∧ c.toNat < 0x110000 := c.valid
  have hscalar : ¬(0xD800 ≤ c.toNat ∧ c.toNat < 0xE000) := by omega
  rw [unitChar, if_neg (by simpa using hscalar), Char.ofNat_toNat]

/-!
## Characters
-/

theorem readText_unitEscape (start : List Char) (bound : Nat) {c : Char} (h : c.toNat < 0x10000)
    (next : Char) (rest : List Char) :
    readText start (bound + 1) (unitEscape c.toNat ++ next :: rest) =
      (readText start bound (next :: rest)).map fun (cs, rest) => (c :: cs, rest) := by
  have hvalid : c.toNat < 0xD800 ∨ 0xDFFF < c.toNat ∧ c.toNat < 0x110000 := c.valid
  have hscalar : ¬(0xD800 ≤ c.toNat ∧ c.toNat < 0xDC00) := by omega
  rw [unitEscape, List.cons_append, List.cons_append, readText, readUnit_hexPadded h]
  simp only [Bool.and_eq_true, decide_eq_true_eq, if_neg hscalar, unitChar_toNat h]

theorem readText_pair (start : List Char) (bound : Nat) {c : Char} (h : ¬c.toNat < 0x10000)
    (next : Char) (rest : List Char) :
    readText start (bound + 1) (unitEscape (0xD800 + (c.toNat - 0x10000) / 0x400) ++
        unitEscape (0xDC00 + (c.toNat - 0x10000) % 0x400) ++ next :: rest) =
      (readText start bound (next :: rest)).map fun (cs, rest) => (c :: cs, rest) := by
  have hvalid : c.toNat < 0xD800 ∨ 0xDFFF < c.toNat ∧ c.toNat < 0x110000 := c.valid
  obtain ⟨n, hn⟩ : ∃ n, n = c.toNat - 0x10000 := ⟨_, rfl⟩
  have hhigh : 0xD800 ≤ 0xD800 + n / 0x400 ∧ 0xD800 + n / 0x400 < 0xDC00 := by omega
  have hlow : 0xDC00 ≤ 0xDC00 + n % 0x400 ∧ 0xDC00 + n % 0x400 < 0xE000 := by omega
  have hsecond : lowHalf? (unitEscape (0xDC00 + n % 0x400) ++ next :: rest) =
      some (0xDC00 + n % 0x400, next :: rest) := by
    rw [unitEscape, List.cons_append, List.cons_append, lowHalf?,
      readUnit_hexPadded (by omega)]
    simp [hlow]
  have hfirst := readUnit_hexPadded (n := 0xD800 + n / 0x400) (by omega) '\\'
    ('u' :: (Text.hexPadded 4 (0xDC00 + n % 0x400) ++ next :: rest))
  have hvalue : 0x10000 + (0xD800 + n / 0x400 - 0xD800) * 0x400 + (0xDC00 + n % 0x400 - 0xDC00) =
      c.toNat := by omega
  rw [← hn, unitEscape, List.append_assoc, List.cons_append, List.cons_append, readText]
  rw [unitEscape, List.cons_append, List.cons_append] at hsecond ⊢
  rw [hfirst]
  simp only [Bool.and_eq_true, decide_eq_true_eq, if_pos hhigh, hsecond, hvalue, Char.ofNat_toNat]

theorem readText_plain (start : List Char) (bound : Nat) {c : Char} (hquote : c ≠ '"')
    (hescape : c ≠ '\\') (hvisible : 0x20 ≤ c.toNat) (rest : List Char) :
    readText start (bound + 1) (c :: rest) =
      (readText start bound rest).map fun (cs, rest) => (c :: cs, rest) := by
  have hlarge : ¬c.toNat < 0x20 := Nat.not_lt.mpr hvisible
  rw [readText, if_neg hlarge]
  · exact hquote
  · exact fun heq _ => hescape heq
  · exact fun _ heq _ => hescape heq
  · exact fun _ _ heq _ => hescape heq

theorem readText_escapeChar (start : List Char) (bound : Nat) (c next : Char) (rest : List Char) :
    readText start (bound + 1) (escapeChar c ++ next :: rest) =
      (readText start bound (next :: rest)).map fun (cs, rest) => (c :: cs, rest) := by
  by_cases hletter : c ∈ ['"', '\\', '\n', '\r', '\t', '\x0c', '\x08']
  · simp only [List.mem_cons, List.not_mem_nil, or_false] at hletter
    rcases hletter with rfl | rfl | rfl | rfl | rfl | rfl | rfl
    all_goals rfl
  · simp only [List.mem_cons, List.not_mem_nil, or_false, not_or] at hletter
    rcases hletter with ⟨hquote, hescape, hline, hreturn, htab, hfeed, hback⟩
    simp only [escapeChar, beq_iff_eq, hquote, hescape, hline, hreturn, htab, hfeed, hback,
      if_false, Bool.and_eq_true, decide_eq_true_eq]
    split
    · rename_i hvisible
      exact readText_plain start bound hquote hescape hvisible.1 _
    · split
      · rename_i hbasic
        exact readText_unitEscape start bound hbasic next rest
      · rename_i hbeyond
        exact readText_pair start bound hbeyond next rest

theorem escapeChar_ne_nil (c : Char) : escapeChar c ≠ [] := by
  unfold escapeChar
  repeat' split
  all_goals exact List.cons_ne_nil _ _

theorem length_le_flatMap_escapeChar (cs : List Char) :
    cs.length ≤ (cs.flatMap escapeChar).length := by
  induction cs with
  | nil => exact Nat.le_refl 0
  | cons c cs ih =>
      have hsome := List.length_pos_of_ne_nil (escapeChar_ne_nil c)
      rw [List.flatMap_cons, List.length_append, List.length_cons]
      omega

/-- A text is read back up to its closing quote. -/
theorem readText_flatMap (start : List Char) {cs : List Char} {bound : Nat}
    (hbound : cs.length < bound) (rest : List Char) :
    readText start bound (cs.flatMap escapeChar ++ '"' :: rest) = .ok (cs, rest) := by
  induction cs generalizing bound with
  | nil =>
      obtain ⟨less, rfl⟩ := Nat.exists_eq_add_one.mpr hbound
      rfl
  | cons c cs ih =>
      obtain ⟨less, rfl⟩ := Nat.exists_eq_add_one.mpr (Nat.zero_lt_of_lt hbound)
      have hrest := @ih less (by simpa using hbound)
      have hnext : ∃ next tail, cs.flatMap escapeChar ++ '"' :: rest = next :: tail := by
        cases cs.flatMap escapeChar with
        | nil => exact ⟨_, _, rfl⟩
        | cons next tail => exact ⟨_, _, rfl⟩
      rcases hnext with ⟨next, tail, hnext⟩
      rw [hnext] at hrest
      rw [List.flatMap_cons, List.append_assoc, hnext, readText_escapeChar, hrest]
      rfl

end Json
end Roster
