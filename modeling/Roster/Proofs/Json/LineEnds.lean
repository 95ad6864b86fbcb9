import Roster.Proofs.Json.RoundTrip
import Roster.Text.Utf8

/-!
# Line ends in the text of a document

The text of a document holds no carriage return, so a reader that makes all line ends one reads
the same text.
-/

namespace Roster
namespace Json

theorem return_not_mem_toDigits (base : Nat) (hbase : 1 < base) (hsmall : base ≤ 16) (n : Nat) :
    '\r' ∉ Nat.toDigits base n := by
  have hdigit : ∀ d : Fin 16, Nat.digitChar d ≠ '\r' := by decide
  induction n using Nat.strong_induction_on with
  | h n ih =>
    rw [Nat.toDigits_eq_if hbase]
    split
    · rename_i hlt
      intro hmem
      exact hdigit ⟨n, by omega⟩ (List.mem_singleton.mp hmem).symm
    · rename_i hge
      have hless : n / base < n := Nat.div_lt_self (by omega) hbase
      have hmod : n % base < 16 := Nat.lt_of_lt_of_le (Nat.mod_lt n (by omega)) hsmall
      rw [List.mem_append, not_or]
      refine ⟨ih (n / base) hless, fun hmem => ?_⟩
      exact hdigit ⟨n % base, hmod⟩ (List.mem_singleton.mp hmem).symm

theorem return_not_mem_unitEscape (n : Nat) : '\r' ∉ unitEscape n := by
  have hdigits := return_not_mem_toDigits 16 (by decide) (by decide) n
  simp [unitEscape, Text.hexPadded, Text.hexDigits, hdigits]

theorem return_not_mem_escapeChar (c : Char) : '\r' ∉ escapeChar c := by
  unfold escapeChar
  by_cases hreturn : c = '\r'
  · subst hreturn
    decide
  · have hne : '\r' ≠ c := fun heq => hreturn heq.symm
    repeat' split
    all_goals simp [return_not_mem_unitEscape, hne]

theorem return_not_mem_writeText (s : String) : '\r' ∉ (writeText s).toList := by
  simp [toList_writeText, List.mem_flatMap, return_not_mem_escapeChar]

theorem return_not_mem_layout (c : Double.Decimal) : '\r' ∉ Double.layout c := by
  have hdigits := return_not_mem_toDigits 10 (by decide) (by decide)
  have htake : ∀ count n, '\r' ∉ (Nat.toDigits 10 n).take count :=
    fun count n hmem => hdigits n (List.mem_of_mem_take hmem)
  have hdrop : ∀ count n, '\r' ∉ (Nat.toDigits 10 n).drop count :=
    fun count n hmem => hdigits n (List.mem_of_mem_drop hmem)
  have htail : ∀ n, '\r' ∉ (Nat.toDigits 10 n).tail :=
    fun n hmem => hdigits n (List.mem_of_mem_tail hmem)
  unfold Double.layout Double.exponentText
  simp only
  repeat' split
  all_goals simp [hdigits, htake, hdrop, htail]

theorem return_not_mem_writeDouble (d : Double) : '\r' ∉ (writeDouble d).toList := by
  cases d with
  | finite negative mantissa exponent =>
      have hlayout := return_not_mem_layout (Double.shortest negative mantissa exponent)
      simp only [writeDouble, Double.render, String.toList_ofList]
      repeat' split
      all_goals simp [hlayout]
  | infinite negative =>
      cases negative with
      | true => decide
      | false => decide
  | nan => decide

theorem return_not_mem_newLine (level : Nat) : '\r' ∉ (newLine level).toList := by
  simp [toList_newLine]

theorem return_not_mem_separator (level : Nat) : '\r' ∉ (separator level).toList := by
  simp [toList_separator, return_not_mem_newLine]

theorem writeItems_eq_map (level : Nat) (items : List Value) :
    writeItems level items = items.map (writeAt level) := by
  induction items with
  | nil => rw [writeItems, List.map_nil]
  | cons v more ih => rw [writeItems, ih, List.map_cons]

theorem writeEntries_eq_map (level : Nat) (entries : Entries) :
    writeEntries level entries =
      entries.map fun entry => writeText entry.1 ++ ": " ++ writeAt level entry.2 := by
  induction entries with
  | nil => rw [writeEntries, List.map_nil]
  | cons entry more ih => rw [writeEntries, ih, List.map_cons]

theorem return_not_mem_intercalate {sep : String} {parts : List String} (hsep : '\r' ∉ sep.toList)
    (hparts : ∀ part ∈ parts, '\r' ∉ part.toList) :
    '\r' ∉ (String.intercalate sep parts).toList := by
  induction parts with
  | nil => exact List.not_mem_nil
  | cons part more ih =>
      rw [List.forall_mem_cons] at hparts
      cases more with
      | nil =>
          rw [String.intercalate_singleton]
          exact hparts.1
      | cons next others =>
          rw [String.intercalate_cons_cons, String.toList_append, String.toList_append,
            List.mem_append, List.mem_append, not_or, not_or]
          exact ⟨⟨hparts.1, hsep⟩, ih hparts.2⟩

theorem return_not_mem_framed {opening closing : String} {parts : List String} (level : Nat)
    (hopening : '\r' ∉ opening.toList) (hparts : ∀ part ∈ parts, '\r' ∉ part.toList)
    (hclosing : '\r' ∉ closing.toList) :
    '\r' ∉ (opening ++ newLine (level + 1) ++
      String.intercalate ("," ++ newLine (level + 1)) parts ++ newLine level ++ closing).toList := by
  have hjoined := return_not_mem_intercalate (return_not_mem_separator (level + 1)) hparts
  simp only [String.toList_append, List.mem_append, not_or]
  exact ⟨⟨⟨⟨hopening, return_not_mem_newLine (level + 1)⟩, hjoined⟩,
    return_not_mem_newLine level⟩, hclosing⟩

theorem return_not_mem_writeAt {v : Value} (h : v.IsDocument) (level : Nat) :
    '\r' ∉ (writeAt level v).toList := by
  induction h generalizing level with
  | null =>
      rw [writeAt]
      decide
  | bool b =>
      rw [writeAt]
      cases b with
      | true => decide
      | false => decide
  | @int i h =>
      rw [writeAt, Int.toString_eq_repr, Int.repr_eq_if]
      split
      · simp [return_not_mem_toDigits]
      · simp [return_not_mem_toDigits]
  | float h =>
      rw [writeAt]
      exact return_not_mem_writeDouble _
  | str s =>
      rw [writeAt]
      exact return_not_mem_writeText s
  | @list items h ih =>
      cases items with
      | nil =>
          rw [writeAt]
          decide
      | cons v more =>
          have hparts : ∀ part ∈ writeItems (level + 1) (v :: more), '\r' ∉ part.toList := by
            rw [writeItems_eq_map]
            intro part hpart
            rcases List.mem_map.mp hpart with ⟨item, hitem, rfl⟩
            exact ih item hitem (level + 1)
          rw [writeAt]
          · exact return_not_mem_framed level (by decide) hparts (by decide)
          · exact List.cons_ne_nil v more
  | @map entries hnodup h ih =>
      cases entries with
      | nil =>
          rw [writeAt]
          decide
      | cons entry more =>
          have hparts : ∀ part ∈ writeEntries (level + 1) (entry :: more), '\r' ∉ part.toList := by
            rw [writeEntries_eq_map]
            intro part hpart
            rcases List.mem_map.mp hpart with ⟨other, hother, rfl⟩
            have hvalue := ih other hother (level + 1)
            have hkey := return_not_mem_writeText other.1
            simp [hkey, hvalue]
          rw [writeAt]
          · exact return_not_mem_framed level (by decide) hparts (by decide)
          · exact List.cons_ne_nil entry more

/-- A document is read back from its text whatever is done to line ends. -/
theorem read_unifyLineEnds {v : Value} (h : v.IsDocument) :
    read (String.ofList (Text.unifyLineEnds (write v ++ "\n").toList)) = .ok v := by
  have hlines : '\r' ∉ (write v ++ "\n").toList := by
    rw [String.toList_append, List.mem_append, not_or]
    exact ⟨return_not_mem_writeAt h 0, by decide⟩
  rw [Text.unifyLineEnds_eq_self hlines, String.ofList_toList, read_write h]

end Json
end Roster
