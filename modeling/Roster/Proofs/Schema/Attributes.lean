import Roster.Field.Definition
import Roster.Proofs.Value.Entries
import Roster.Proofs.Value.Kinds

/-!
# What definitions are read from

A definition takes most values as they are.  Options must have items or be missing, a greatest
length must be a number or a numeral, and the map must name its field.  Whether a definition can be
read is seen at each of its entries alone.
-/

namespace Roster

namespace Attribute

theorem ofName?_eq_some_iff {name : String} {a : Attribute} :
    ofName? name = some a ↔ (a, name) ∈ names := by
  constructor
  · intro h
    rcases Option.map_eq_some_iff.mp h with ⟨entry, hfound, rfl⟩
    have hname := List.find?_some hfound
    rw [beq_iff_eq] at hname
    rw [← hname]
    exact List.mem_of_find?_eq_some hfound
  · have hnames : ∀ entry ∈ names, ofName? entry.2 = some entry.1 := by decide
    exact hnames (a, name)

theorem eq_iff_of_ofName? {name other : String} {a b : Attribute} (ha : ofName? name = some a)
    (hb : ofName? other = some b) : a = b ↔ name = other := by
  constructor
  · rintro rfl
    have hnames : ∀ entry ∈ names, ∀ twin ∈ names, entry.1 = twin.1 → entry.2 = twin.2 := by decide
    exact hnames _ (ofName?_eq_some_iff.mp ha) _ (ofName?_eq_some_iff.mp hb) rfl
  · rintro rfl
    exact Option.some.inj (ha.symm.trans hb)

/-- The attribute can be set from the value. -/
def Accepts (a : Attribute) (v : Value) : Prop :=
  match a with
  | .options | .cleanOptions => v = .null ∨ v.isIterable = true
  | .maxLength => v = .null ∨ v = .str "" ∨ ∃ n, v.toInt = .ok n
  | _ => True

theorem exists_optionList_iff {v : Value} :
    (∃ options, optionList v = .ok options) ↔ v = .null ∨ v.isIterable = true := by
  by_cases hnull : v = .null
  · rw [hnull]
    exact iff_of_true ⟨[], rfl⟩ (Or.inl rfl)
  · rw [or_iff_right hnull, ← Value.exists_items_iff]
    cases v with
    | null => exact absurd rfl hnull
    | str s => exact iff_of_true ⟨[s], rfl⟩ ⟨_, rfl⟩
    | _ =>
        rw [optionList]
        · exact Steps.exists_map_iff
        · exact fun heq => nomatch heq
        · exact fun s heq => nomatch heq

theorem exists_length_iff {v : Value} :
    (∃ length, Attribute.length v = .ok length) ↔
      v = .null ∨ v = .str "" ∨ ∃ n, v.toInt = .ok n := by
  cases v with
  | null => exact iff_of_true ⟨none, rfl⟩ (Or.inl rfl)
  | str s =>
      by_cases hempty : s = ""
      · rw [hempty]
        exact iff_of_true ⟨none, rfl⟩ (Or.inr (Or.inl rfl))
      · have hbeq : ¬(s == "") = true := by
          rwa [beq_iff_eq]
        simp only [Attribute.length, if_neg hbeq, Steps.exists_map_iff, reduceCtorEq, false_or,
          Value.str.injEq, hempty]
  | _ =>
      rw [Attribute.length]
      · simp only [Steps.exists_map_iff, reduceCtorEq, false_or]
      · exact fun heq => nomatch heq
      · exact fun s heq => nomatch heq

end Attribute

namespace Definition

theorem exists_assign_iff {d : Definition} {a : Attribute} {v : Value} :
    (∃ d', d.assign a v = .ok d') ↔ a.Accepts v := by
  cases a with
  | options | cleanOptions =>
      unfold assign
      rw [Steps.exists_map_iff, Attribute.exists_optionList_iff]
      rfl
  | maxLength =>
      unfold assign
      rw [Steps.exists_map_iff, Attribute.exists_length_iff]
      rfl
  | _ => exact iff_of_true ⟨_, rfl⟩ trivial

theorem exists_addEntry_iff {d : Definition} {e : String × Value} :
    (∃ d', d.addEntry e = .ok d') ↔ ∀ a, Attribute.ofName? e.1 = some a → a.Accepts e.2 := by
  unfold addEntry
  cases hname : Attribute.ofName? e.1 with
  | some a =>
      simp only [exists_assign_iff, Option.some_inj, forall_eq']
  | none =>
      refine iff_of_true ?_ fun a ha => nomatch ha
      dsimp only
      split
      · exact ⟨_, rfl⟩
      · exact ⟨_, rfl⟩

theorem exists_addEntries_iff {d : Definition} {entries : Entries} :
    (∃ d', entries.foldlM addEntry d = .ok d') ↔
      ∀ e ∈ entries, ∀ a, Attribute.ofName? e.1 = some a → a.Accepts e.2 :=
  Steps.exists_foldlM_iff
    (P := fun e : String × Value => ∀ a, Attribute.ofName? e.1 = some a → a.Accepts e.2)
    fun _ _ => exists_addEntry_iff

/-- The entries name a field, and each attribute among them can be set. -/
structure IsReadable (entries : Entries) : Prop where
  named : "field_name" ∈ Entries.keys entries
  attributes : ∀ e ∈ entries, ∀ a, Attribute.ofName? e.1 = some a → a.Accepts e.2

theorem exists_ofEntries_iff {entries : Entries} :
    (∃ d, ofEntries entries = .ok d) ↔ IsReadable entries := by
  unfold ofEntries
  rw [Steps.exists_bind_iff]
  constructor
  · rintro ⟨last, hlast, d, hd⟩
    split at hd
    · rename_i hnamed
      exact ⟨Entries.has_iff_mem_keys.mp hnamed, exists_addEntries_iff.mp ⟨last, hlast⟩⟩
    · cases hd
  · rintro ⟨hnamed, hattributes⟩
    rcases exists_addEntries_iff.mpr hattributes with ⟨last, hlast⟩
    exact ⟨last, hlast, last, if_pos (Entries.has_iff_mem_keys.mpr hnamed)⟩

theorem exists_ofValue_iff {v : Value} :
    (∃ d, ofValue v = .ok d) ↔ ∃ entries, v = .map entries ∧ IsReadable entries := by
  unfold ofValue
  rw [Steps.exists_bind_iff]
  simp only [exists_ofEntries_iff]
  cases v with
  | map entries => simp [Value.entries]
  | _ => simp [Value.entries]

end Definition
end Roster
