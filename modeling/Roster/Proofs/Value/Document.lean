import Roster.Proofs.Number.Numeral
import Roster.Proofs.Number.Shortest
import Roster.Proofs.Value.Entries
import Roster.Value.Fault

/-!
# Values of documents

The values that a document can give: its whole numbers are not longer than a numeral may be, its
other numbers are rounded, and its maps have each key once.
-/

namespace Roster
namespace Value

/-- A value that a document can give. -/
inductive IsDocument : Value → Prop
  | null : IsDocument .null
  | bool (b : Bool) : IsDocument (.bool b)
  | int {i : Int} (h : (Nat.toDigits 10 i.natAbs).length ≤ Numeral.maxDigits) : IsDocument (.int i)
  | float {d : Double} (h : d.Canonical) : IsDocument (.float d)
  | str (s : String) : IsDocument (.str s)
  | list {items : List Value} (h : ∀ v ∈ items, IsDocument v) : IsDocument (.list items)
  | map {entries : List (String × Value)} (hnodup : (Entries.keys entries).Nodup)
      (h : ∀ entry ∈ entries, IsDocument entry.2) : IsDocument (.map entries)

theorem isDocument_lookup {entries : Entries} (h : ∀ entry ∈ entries, entry.2.IsDocument)
    (key : String) : ((entries.lookup key).getD .null).IsDocument := by
  cases hlookup : entries.lookup key with
  | none => exact .null
  | some v => exact h (key, v) (Entries.mem_of_lookup hlookup)

theorem isDocument_set {entries : Entries} (h : ∀ entry ∈ entries, entry.2.IsDocument)
    (key : String) {v : Value} (hv : v.IsDocument) :
    ∀ entry ∈ Entries.set entries key v, entry.2.IsDocument := by
  intro entry hentry
  rcases Entries.mem_set hentry with rfl | hold
  · exact hv
  · exact h entry hold

theorem IsDocument.items {v : Value} (h : v.IsDocument) {items : List Value}
    (hitems : v.items = .ok items) : ∀ item ∈ items, item.IsDocument := by
  cases h with
  | list h =>
      cases hitems
      exact h
  | str s =>
      cases hitems
      intro item hitem
      rcases List.mem_map.mp hitem with ⟨c, -, rfl⟩
      exact .str _
  | map hnodup h =>
      cases hitems
      intro item hitem
      rcases List.mem_map.mp hitem with ⟨entry, -, rfl⟩
      exact .str _
  | null => cases hitems
  | bool b => cases hitems
  | int h => cases hitems
  | float h => cases hitems

/-!
## Lengths of whole numbers
-/

theorem length_truncate {d : Double} (h : d.Canonical) {i : Int} (hi : d.truncate? = some i) :
    (Nat.toDigits 10 i.natAbs).length ≤ Numeral.maxDigits := by
  cases d with
  | nan => cases hi
  | infinite negative => cases hi
  | finite negative mantissa exponent =>
      rw [Double.truncate?] at hi
      rw [← Option.some.inj hi, Numeral.natAbs_signed]
      have hmantissa : mantissa < 2 ^ 53 := h.1
      have hmax : exponent ≤ 971 := h.2.2.1
      have hsize : (if 0 ≤ exponent then mantissa * Nat.pow 2 exponent.toNat
          else mantissa / Nat.pow 2 (-exponent).toNat) < 10 ^ 400 := by
        split
        · calc mantissa * Nat.pow 2 exponent.toNat ≤ 2 ^ 53 * 2 ^ 971 :=
                Nat.mul_le_mul hmantissa.le (Nat.pow_le_pow_right (by decide) (by omega))
            _ < 10 ^ 400 := by decide +kernel
        · calc mantissa / Nat.pow 2 (-exponent).toNat ≤ mantissa := Nat.div_le_self _ _
            _ < 2 ^ 53 := hmantissa
            _ < 10 ^ 400 := by decide +kernel
      exact (Numeral.length_toDigits_le (by decide) hsize).trans (by decide)

/-- A value is never longer, as a whole number, than a numeral may be. -/
theorem IsDocument.length_toInt {v : Value} (h : v.IsDocument) {i : Int} (hi : v.toInt = .ok i) :
    (Nat.toDigits 10 i.natAbs).length ≤ Numeral.maxDigits := by
  cases h with
  | bool b =>
      cases b with
      | true =>
          cases hi
          decide
      | false =>
          cases hi
          decide
  | int h =>
      cases hi
      exact h
  | @float d h =>
      cases d with
      | nan => cases hi
      | infinite negative => cases hi
      | finite negative mantissa exponent =>
          exact length_truncate h (congrArg some (Except.ok.inj hi))
  | str s =>
      unfold toInt at hi
      dsimp only at hi
      split at hi
      · rename_i hparse
        cases hi
        exact Numeral.length_parse hparse
      · cases hi
      · cases hi
  | null => cases hi
  | list h => cases hi
  | map hnodup h => cases hi

end Value
end Roster
