import Mathlib.Data.List.Nodup
import Roster.Value.Basic

/-!
# Keys and values of entries

Setting keys that are there already leaves the keys and their order alone, and entries with
different keys are known by their keys and by what is found under each of them.
-/

namespace Roster
namespace Entries

variable {α : Type}

/-!
## Looking up
-/

theorem mem_keys_iff_isSome {entries : List (String × α)} {key : String} :
    key ∈ keys entries ↔ (entries.lookup key).isSome = true := by
  induction entries with
  | nil => simp [keys]
  | cons entry rest ih =>
      rcases entry with ⟨k, v⟩
      rw [keys] at ih
      by_cases hkey : key = k
      · simp [keys, hkey]
      · have hbeq : (key == k) = false := by simpa using hkey
        simp [keys, List.lookup_cons, hkey, hbeq, ih]

theorem lookup_eq_none_iff {entries : List (String × α)} {key : String} :
    entries.lookup key = none ↔ key ∉ keys entries := by
  rw [mem_keys_iff_isSome, Bool.not_eq_true, Option.isSome_eq_false_iff, Option.isNone_iff_eq_none]

theorem lookup_alike {β : Type} {entries : List (String × α)} {other : List (String × β)}
    (h : keys entries = keys other) (key : String) :
    (entries.lookup key = none ∧ other.lookup key = none) ∨
      ∃ v w, entries.lookup key = some v ∧ other.lookup key = some w := by
  by_cases hkey : key ∈ keys entries
  · have hother : key ∈ keys other := h ▸ hkey
    rw [mem_keys_iff_isSome, Option.isSome_iff_exists] at hkey hother
    rcases hkey with ⟨v, hv⟩
    rcases hother with ⟨w, hw⟩
    exact Or.inr ⟨v, w, hv, hw⟩
  · exact Or.inl ⟨lookup_eq_none_iff.mpr hkey, lookup_eq_none_iff.mpr (h ▸ hkey)⟩

theorem has_iff_mem_keys {entries : List (String × α)} {key : String} :
    has entries key = true ↔ key ∈ keys entries := by
  rw [has, keys, List.any_eq_true, List.mem_map]
  simp only [beq_iff_eq]

theorem lookup_of_mem {entries : List (String × α)} (hnodup : (keys entries).Nodup)
    {key : String} {value : α} (h : (key, value) ∈ entries) :
    entries.lookup key = some value := by
  induction entries with
  | nil => cases h
  | cons entry rest ih =>
      rcases entry with ⟨k, v⟩
      rw [keys, List.map_cons, List.nodup_cons] at hnodup
      rcases List.mem_cons.mp h with heq | hrest
      · cases heq
        simp
      · have hne : (key == k) = false := by
          rw [beq_eq_false_iff_ne]
          rintro rfl
          exact hnodup.1 (List.mem_map.mpr ⟨_, hrest, rfl⟩)
        simpa [List.lookup_cons, hne] using ih hnodup.2 hrest

theorem mem_of_lookup {entries : List (String × α)} {key : String} {value : α}
    (h : entries.lookup key = some value) : (key, value) ∈ entries := by
  induction entries with
  | nil => cases h
  | cons entry rest ih =>
      rcases entry with ⟨k, v⟩
      by_cases hkey : key = k
      · subst hkey
        have hvalue : v = value := by simpa [List.lookup_cons] using h
        rw [hvalue]
        exact List.mem_cons_self
      · have hbeq : (key == k) = false := by simpa using hkey
        rw [List.lookup_cons, hbeq] at h
        exact List.mem_cons_of_mem _ (ih h)

theorem ext_lookup {entries other : List (String × α)} (hkeys : keys entries = keys other)
    (hnodup : (keys entries).Nodup) (h : ∀ key, entries.lookup key = other.lookup key) :
    entries = other := by
  induction entries generalizing other with
  | nil => exact (List.map_eq_nil_iff.mp hkeys.symm).symm
  | cons entry rest ih =>
      cases other with
      | nil => cases hkeys
      | cons twin others =>
          rcases entry with ⟨k, v⟩
          rcases twin with ⟨l, w⟩
          rw [keys, keys, List.map_cons, List.map_cons, List.cons.injEq] at hkeys
          rcases hkeys with ⟨rfl, hrest⟩
          rw [keys, List.map_cons, List.nodup_cons] at hnodup
          have hvalue : v = w := by simpa using h k
          rw [hvalue, ih hrest hnodup.2]
          intro key
          by_cases hkey : key = k
          · have hother : k ∉ keys others := fun hmem => hnodup.1 (hrest ▸ hmem)
            rw [hkey, lookup_eq_none_iff.mpr hnodup.1, lookup_eq_none_iff.mpr hother]
          · have hbeq : (key == k) = false := by simpa using hkey
            simpa [List.lookup_cons, hbeq] using h key

theorem lookup_map {β : Type} (f : α → β) (entries : List (String × α)) (key : String) :
    (entries.map fun entry => (entry.1, f entry.2)).lookup key = (entries.lookup key).map f := by
  induction entries with
  | nil => rfl
  | cons entry rest ih =>
      rcases entry with ⟨k, v⟩
      rw [List.map_cons, List.lookup_cons, List.lookup_cons]
      cases key == k with
      | true => rfl
      | false => exact ih

/-!
## Setting
-/

theorem set_of_not_mem {entries : List (String × α)} {key : String} (value : α)
    (h : key ∉ keys entries) : set entries key value = entries ++ [(key, value)] := by
  induction entries with
  | nil => rfl
  | cons entry rest ih =>
      rcases entry with ⟨k, v⟩
      rw [keys, List.map_cons, List.mem_cons, not_or] at h
      have hne : ¬(k == key) = true := by simpa using fun heq => h.1 heq.symm
      rw [set, if_neg hne, ih h.2, List.cons_append]

theorem keys_set_of_mem {entries : List (String × α)} {key : String} (value : α)
    (h : key ∈ keys entries) : keys (set entries key value) = keys entries := by
  induction entries with
  | nil => cases h
  | cons entry rest ih =>
      rcases entry with ⟨k, v⟩
      by_cases hkey : k = key
      · simp [set, hkey, keys]
      · rw [keys, List.map_cons, List.mem_cons] at h
        have hrest : key ∈ keys rest := h.resolve_left fun heq => hkey heq.symm
        have hkeys : List.map Prod.fst (set rest key value) = List.map Prod.fst rest := ih hrest
        simp [set, hkey, keys, hkeys]

theorem nodup_keys_set {entries : List (String × α)} {key : String} {value : α}
    (hnodup : (keys entries).Nodup) : (keys (set entries key value)).Nodup := by
  by_cases hkey : key ∈ keys entries
  · rwa [keys_set_of_mem value hkey]
  · rw [set_of_not_mem value hkey, keys, List.map_append]
    exact hnodup.append (List.nodup_singleton _) (by simpa [keys] using hkey)

theorem mem_set {entries : List (String × α)} {key : String} {value : α} {entry : String × α}
    (h : entry ∈ set entries key value) : entry = (key, value) ∨ entry ∈ entries := by
  induction entries with
  | nil => exact Or.inl (List.mem_singleton.mp h)
  | cons other rest ih =>
      rcases other with ⟨k, v⟩
      rw [set] at h
      split at h
      · rcases List.mem_cons.mp h with heq | hrest
        · exact Or.inl heq
        · exact Or.inr (List.mem_cons_of_mem _ hrest)
      · rcases List.mem_cons.mp h with heq | hrest
        · exact Or.inr (heq ▸ List.mem_cons_self)
        · rcases ih hrest with hnew | hold
          · exact Or.inl hnew
          · exact Or.inr (List.mem_cons_of_mem _ hold)

theorem lookup_set (entries : List (String × α)) (key other : String) (value : α) :
    (set entries key value).lookup other =
      if other = key then some value else entries.lookup other := by
  by_cases h : other = key
  · rw [if_pos h, h, lookup_set_self]
  · rw [if_neg h, lookup_set_of_ne entries value h]

/-!
## Setting several keys
-/

@[simp] theorem setAll_nil (entries : List (String × α)) : setAll entries [] = entries := rfl

@[simp] theorem setAll_cons (entries rest : List (String × α)) (change : String × α) :
    setAll entries (change :: rest) = setAll (set entries change.1 change.2) rest := rfl

theorem nodup_keys_setAll {entries changes : List (String × α)} (hnodup : (keys entries).Nodup) :
    (keys (setAll entries changes)).Nodup := by
  induction changes generalizing entries with
  | nil => exact hnodup
  | cons change rest ih => exact ih (nodup_keys_set hnodup)

theorem keys_setAll_of_subset {entries changes : List (String × α)}
    (h : ∀ key ∈ keys changes, key ∈ keys entries) :
    keys (setAll entries changes) = keys entries := by
  induction changes generalizing entries with
  | nil => rfl
  | cons change rest ih =>
      have hhead : change.1 ∈ keys entries := h change.1 (by simp [keys])
      have hkeys : keys (set entries change.1 change.2) = keys entries :=
        keys_set_of_mem change.2 hhead
      rw [setAll_cons, ih, hkeys]
      intro key hmem
      rw [hkeys]
      exact h key (List.mem_cons_of_mem _ hmem)

theorem setAll_of_disjoint {entries changes : List (String × α)} (hnodup : (keys changes).Nodup)
    (hdisjoint : ∀ key ∈ keys changes, key ∉ keys entries) :
    setAll entries changes = entries ++ changes := by
  induction changes generalizing entries with
  | nil => rw [setAll_nil, List.append_nil]
  | cons change rest ih =>
      rw [keys, List.map_cons, List.nodup_cons] at hnodup
      have hhead : change.1 ∉ keys entries := hdisjoint change.1 (by simp [keys])
      rw [setAll_cons, set_of_not_mem change.2 hhead, ih hnodup.2, List.append_assoc,
        List.singleton_append]
      intro key hmem
      rw [keys, List.map_append, List.mem_append]
      rintro (hold | hnew)
      · exact hdisjoint key (List.mem_cons_of_mem _ hmem) hold
      · have hkey : key = change.1 := by simpa using hnew
        exact hnodup.1 (hkey ▸ hmem)

theorem setAll_nil_of_nodup {changes : List (String × α)} (hnodup : (keys changes).Nodup) :
    setAll [] changes = changes := by
  have hdisjoint : ∀ key ∈ keys changes, key ∉ keys ([] : List (String × α)) :=
    fun _ _ => List.not_mem_nil
  rw [setAll_of_disjoint hnodup hdisjoint, List.nil_append]

/-- Of several changes to a key the last one counts. -/
theorem lookup_setAll (entries changes : List (String × α)) (key : String) :
    (setAll entries changes).lookup key = (changes.reverse.lookup key).or (entries.lookup key) := by
  induction changes generalizing entries with
  | nil => rfl
  | cons change rest ih =>
      rcases change with ⟨k, v⟩
      rw [setAll_cons, ih, lookup_set, List.reverse_cons, List.lookup_append]
      cases hrest : rest.reverse.lookup key with
      | some w => rfl
      | none =>
          by_cases hkey : key = k
          · simp [hkey]
          · have hbeq : (key == k) = false := by simpa using hkey
            simp [List.lookup_cons, hkey, hbeq]

theorem keys_reverse (entries : List (String × α)) :
    keys entries.reverse = (keys entries).reverse :=
  List.map_reverse

theorem lookup_reverse {entries : List (String × α)} (hnodup : (keys entries).Nodup)
    (key : String) : entries.reverse.lookup key = entries.lookup key := by
  cases h : entries.lookup key with
  | none =>
      rw [lookup_eq_none_iff, keys_reverse, List.mem_reverse]
      exact lookup_eq_none_iff.mp h
  | some value =>
      refine lookup_of_mem ?_ (List.mem_reverse.mpr (mem_of_lookup h))
      rw [keys_reverse]
      exact List.nodup_reverse.mpr hnodup

theorem lookup_filter {p : String → Bool} (entries : List (String × α)) (key : String) :
    (entries.filter fun entry => p entry.1).lookup key =
      if p key = true then entries.lookup key else none := by
  induction entries with
  | nil => simp
  | cons entry rest ih =>
      rcases entry with ⟨k, v⟩
      by_cases hkey : key = k
      · subst hkey
        by_cases hp : p key = true
        · simp [hp]
        · rw [if_neg hp] at ih
          simp [hp, ih]
      · have hbeq : (key == k) = false := by simpa using hkey
        by_cases hp : p k = true
        · simp [hp, List.lookup_cons, hbeq, ih]
        · simp [hp, List.lookup_cons, hbeq, ih]

section FilterMap

variable {β : Type} {f : String × α → Option (String × β)}

theorem keys_filterMap_sublist (hf : ∀ entry other, f entry = some other → other.1 = entry.1)
    (entries : List (String × α)) : (keys (entries.filterMap f)).Sublist (keys entries) := by
  induction entries with
  | nil => exact List.Sublist.refl _
  | cons entry rest ih =>
      rw [List.filterMap_cons]
      cases hentry : f entry with
      | none => exact ih.cons entry.1
      | some other =>
          rw [keys, keys, List.map_cons, List.map_cons, hf entry other hentry]
          exact ih.cons_cons entry.1

theorem lookup_filterMap (hf : ∀ entry other, f entry = some other → other.1 = entry.1)
    {entries : List (String × α)} (hnodup : (keys entries).Nodup) {key : String} {value : α}
    (h : (key, value) ∈ entries) :
    (entries.filterMap f).lookup key = (f (key, value)).map Prod.snd := by
  cases hentry : f (key, value) with
  | none =>
      rw [Option.map_none, lookup_eq_none_iff]
      intro hkey
      rcases List.mem_map.mp hkey with ⟨other, hother, hsame⟩
      rcases List.mem_filterMap.mp hother with ⟨⟨k, v⟩, hmem, hv⟩
      have hk : k = key := (hf _ _ hv).symm.trans hsame
      subst hk
      have hvalue := lookup_of_mem hnodup hmem
      rw [lookup_of_mem hnodup h] at hvalue
      cases hvalue
      rw [hentry] at hv
      cases hv
  | some other =>
      have hother : other = (key, other.2) := Prod.ext (hf _ _ hentry) rfl
      refine lookup_of_mem (hnodup.sublist (keys_filterMap_sublist hf entries)) ?_
      rw [← hother]
      exact List.mem_filterMap.mpr ⟨_, h, hentry⟩

end FilterMap

/-- Of values under a list of names, the one counts that stands under a name for the last time. -/
theorem lookup_setAll_zip {names : List String} {values : List α}
    (hlength : names.length ≤ values.length) {name : String} {value : α} :
    (setAll [] (names.zip values)).lookup name = some value ↔
      ∃ i : Nat, names[i]? = some name ∧ name ∉ names.drop (i + 1) ∧ values[i]? = some value := by
  rw [lookup_setAll, List.lookup_nil, Option.or_none]
  induction names generalizing values with
  | nil => simp
  | cons first rest ih =>
      cases values with
      | nil => simp at hlength
      | cons head more =>
          have hmore : rest.length ≤ more.length := Nat.le_of_succ_le_succ hlength
          have hkeys : keys (rest.zip more).reverse = rest.reverse := by
            rw [keys_reverse, keys, List.map_fst_zip hmore]
          rw [List.zip_cons_cons, List.reverse_cons, List.lookup_append]
          by_cases hmem : name ∈ rest
          · -- The name stands once more, so the first value does not count.
            have hsome : ((rest.zip more).reverse.lookup name).isSome = true := by
              rw [← mem_keys_iff_isSome, hkeys]
              exact List.mem_reverse.mpr hmem
            rw [Option.or_of_isSome hsome, ih hmore]
            constructor
            · rintro ⟨i, hi⟩
              exact ⟨i + 1, hi⟩
            · rintro ⟨i, hname, hlast, hvalue⟩
              cases i with
              | zero => exact absurd hmem hlast
              | succ i => exact ⟨i, hname, hlast, hvalue⟩
          · have hnone : (rest.zip more).reverse.lookup name = none := by
              rw [lookup_eq_none_iff, hkeys, List.mem_reverse]
              exact hmem
            rw [hnone, Option.none_or]
            constructor
            · intro hhead
              have hentry := List.mem_singleton.mp (mem_of_lookup hhead)
              cases hentry
              exact ⟨0, rfl, hmem, rfl⟩
            · rintro ⟨i, hname, -, hvalue⟩
              cases i with
              | zero =>
                  cases hname
                  cases hvalue
                  exact List.lookup_cons_self
              | succ i =>
                  have hrest : rest[i]? = some name := hname
                  exact absurd (List.mem_of_getElem? hrest) hmem

end Entries
end Roster
