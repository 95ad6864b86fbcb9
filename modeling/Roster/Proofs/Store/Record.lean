import Mathlib.Data.List.Nodup
import Roster.Proofs.Value.Entries
import Roster.Store.Basic

/-!
# Stamped records and their order

A record that has all fields keeps them, in their order, when it is stamped or changed.  Records
with different ids can be put in only one order by their ids.
-/

namespace Roster
namespace Record

/-!
## Ids
-/

theorem lookup_valueOf {record : Record} {field : String} (h : field ∈ Entries.keys record) :
    record.lookup field = some (record.valueOf field) := by
  rw [Entries.mem_keys_iff_isSome] at h
  rcases Option.isSome_iff_exists.mp h with ⟨value, hvalue⟩
  rw [valueOf, hvalue, Option.getD_some]

theorem map_valueOf {record : Record} (hnodup : (Entries.keys record).Nodup) :
    (Entries.keys record).map (fun field => (field, record.valueOf field)) = record := by
  rw [Entries.keys, List.map_map]
  refine (List.map_congr_left fun entry hentry => ?_).trans (List.map_id record)
  rcases entry with ⟨field, value⟩
  have hlookup := Entries.lookup_of_mem hnodup hentry
  simp [valueOf, hlookup]

theorem lookup_idField_beq {record : Record} (h : idField ∈ Entries.keys record) (id : String) :
    (record.lookup idField == some id) = (record.id == id) := by
  rw [lookup_valueOf h, Record.id]
  rfl

/-!
## Texts
-/

/-- The record with something made of each of its texts. -/
def mapTexts (f : String → String) (record : Record) : Record :=
  record.map fun (name, text) => (name, f text)

@[simp] theorem keys_mapTexts (f : String → String) (record : Record) :
    Entries.keys (record.mapTexts f) = Entries.keys record := by
  rw [Entries.keys, mapTexts, List.map_map]
  rfl

theorem lookup_mapTexts (f : String → String) (record : Record) (name : String) :
    (record.mapTexts f).lookup name = (record.lookup name).map f :=
  Entries.lookup_map f record name

theorem mapTexts_eq_self {f : String → String} {record : Record}
    (h : ∀ entry ∈ record, f entry.2 = entry.2) : record.mapTexts f = record := by
  refine Eq.trans (List.map_congr_left fun entry hentry => ?_) (List.map_id record)
  rcases entry with ⟨name, text⟩
  exact congrArg (Prod.mk name) (h _ hentry)

/-- A field keeps its data when nothing but the null value is made into the null value. -/
theorem valueOf_mapTexts_ne {f : String → String} {record : Record} {name null : String}
    (hf : ∀ text, f text = null → text = null) (h : record.valueOf name ≠ null) :
    (record.mapTexts f).valueOf name ≠ null := by
  rw [valueOf] at h ⊢
  rw [lookup_mapTexts]
  cases hlookup : record.lookup name with
  | none =>
      rw [hlookup] at h
      exact h
  | some text =>
      rw [hlookup] at h
      exact fun heq => h (hf text heq)

/-!
## Stamps
-/

theorem restrict_of_subset {fields : List String} {record : Record}
    (h : ∀ key ∈ Entries.keys record, key ∈ fields) : record.restrict fields = record := by
  rw [restrict, List.filter_eq_self]
  intro entry hentry
  rw [List.contains_iff_mem]
  exact h entry.1 (List.mem_map_of_mem hentry)

theorem lookup_restrict (fields : List String) (record : Record) (name : String) :
    (record.restrict fields).lookup name = if name ∈ fields then record.lookup name else none := by
  have hfilter := Entries.lookup_filter (p := fields.contains) record name
  simpa [restrict] using hfilter

theorem keys_stampNew {fields : List String} {record : Record} (now : Moment) (id : String)
    (hknown : ∀ field ∈ readOnlyFields, field ∈ fields) (hfull : Entries.keys record = fields) :
    Entries.keys (record.stampNew fields now id) = fields := by
  have hcreated : createdField ∈ Entries.keys record := by
    rw [hfull]
    exact hknown createdField (by simp [readOnlyFields])
  have hmodified : modifiedField ∈ Entries.keys record := by
    rw [hfull]
    exact hknown modifiedField (by simp [readOnlyFields])
  have hid : idField ∈ Entries.keys record := by
    rw [hfull]
    exact hknown idField (by simp [readOnlyFields])
  have hwhole : record.restrict fields = record :=
    restrict_of_subset fun key hkey => hfull ▸ hkey
  have hfirst := Entries.keys_set_of_mem now.stamp hcreated
  have hsecond := Entries.keys_set_of_mem now.stamp (hfirst.symm ▸ hmodified)
  have hthird := Entries.keys_set_of_mem id (hsecond.symm ▸ hfirst.symm ▸ hid)
  rw [stampNew, hwhole, hthird, hsecond, hfirst, hfull]

theorem lookup_stampNew (fields : List String) (now : Moment) (id : String) (record : Record)
    (name : String) :
    (record.stampNew fields now id).lookup name =
      if name = idField then some id
      else if name = modifiedField then some now.stamp
      else if name = createdField then some now.stamp
      else if name ∈ fields then record.lookup name else none := by
  rw [stampNew, Entries.lookup_set, Entries.lookup_set, Entries.lookup_set, lookup_restrict]

theorem id_stampNew (fields : List String) (now : Moment) (id : String) (record : Record) :
    (record.stampNew fields now id).id = id := by
  rw [Record.id, valueOf, lookup_stampNew, if_pos rfl, Option.getD_some]

theorem lookup_stampChanges (fields : List String) (now : Moment) (changes : Record)
    (name : String) :
    (changes.stampChanges fields now).lookup name =
      if name = modifiedField then some now.stamp
      else if name ∈ readOnlyFields then none
      else if name ∈ fields then changes.lookup name else none := by
  have hfilter := Entries.lookup_filter (p := fun key => !readOnlyFields.contains key)
    (changes.restrict fields) name
  rw [stampChanges, Entries.lookup_set, hfilter, lookup_restrict]
  by_cases hmodified : name = modifiedField
  · rw [if_pos hmodified, if_pos hmodified]
  · by_cases hread : name ∈ readOnlyFields
    · simp [hmodified, hread]
    · simp [hmodified, hread]

theorem mem_keys_stampChanges {fields : List String} {now : Moment} {changes : Record}
    {name : String} (h : name ∈ Entries.keys (changes.stampChanges fields now)) :
    name = modifiedField ∨ name ∈ fields ∧ name ∉ readOnlyFields := by
  rw [Entries.mem_keys_iff_isSome, lookup_stampChanges] at h
  by_cases hmodified : name = modifiedField
  · exact Or.inl hmodified
  · right
    rw [if_neg hmodified] at h
    by_cases hread : name ∈ readOnlyFields
    · simp [hread] at h
    · by_cases hfields : name ∈ fields
      · exact ⟨hfields, hread⟩
      · simp [hread, hfields] at h

theorem idField_notMem_keys_stampChanges (fields : List String) (now : Moment) (changes : Record) :
    idField ∉ Entries.keys (changes.stampChanges fields now) := by
  intro h
  rcases mem_keys_stampChanges h with heq | ⟨-, hread⟩
  · exact absurd heq (by decide)
  · exact hread (by simp [readOnlyFields])

theorem keys_setAll_stampChanges {fields : List String} {record : Record} (now : Moment)
    (changes : Record) (hknown : ∀ field ∈ readOnlyFields, field ∈ fields)
    (hfull : Entries.keys record = fields) :
    Entries.keys (Entries.setAll record (changes.stampChanges fields now)) = fields := by
  rw [Entries.keys_setAll_of_subset, hfull]
  intro key hkey
  rw [hfull]
  rcases mem_keys_stampChanges hkey with rfl | ⟨hfields, -⟩
  · exact hknown modifiedField (by simp [readOnlyFields])
  · exact hfields

theorem lookup_modifiedField_setAll (fields : List String) (now : Moment)
    (changes record : Record) :
    (Entries.setAll record (changes.stampChanges fields now)).lookup modifiedField =
      some now.stamp := by
  have hkey : modifiedField ∈ Entries.keys (changes.stampChanges fields now).reverse := by
    rw [Entries.keys_reverse, List.mem_reverse, Entries.mem_keys_iff_isSome, lookup_stampChanges,
      if_pos rfl]
    rfl
  rcases Option.isSome_iff_exists.mp (Entries.mem_keys_iff_isSome.mp hkey) with ⟨value, hvalue⟩
  have hentry : (modifiedField, value) ∈ changes.stampChanges fields now :=
    List.mem_reverse.mp (Entries.mem_of_lookup hvalue)
  rw [Entries.lookup_setAll, hvalue, Option.some_or]
  rcases Entries.mem_set hentry with hstamp | hother
  · rw [(Prod.mk.inj hstamp).2]
  · exact absurd (List.mem_filter.mp hother).2 (by simp [readOnlyFields])

theorem id_setAll_stampChanges (fields : List String) (now : Moment) (changes record : Record) :
    Record.id (Entries.setAll record (changes.stampChanges fields now)) = record.id := by
  have hnone : (changes.stampChanges fields now).reverse.lookup idField = none := by
    rw [Entries.lookup_eq_none_iff, Entries.keys_reverse, List.mem_reverse]
    exact idField_notMem_keys_stampChanges fields now changes
  rw [Record.id, valueOf, Entries.lookup_setAll, hnone, Option.none_or, Record.id, valueOf]

/-!
## Order
-/

theorem pairwise_mergeSort_le {α : Type} (key : α → String) (items : List α) :
    (items.mergeSort fun x y => key x ≤ key y).Pairwise fun x y => key x ≤ key y := by
  have htrans : ∀ x y z : α, decide (key x ≤ key y) = true → decide (key y ≤ key z) = true →
      decide (key x ≤ key z) = true := by
    intro x y z hxy hyz
    rw [decide_eq_true_eq] at hxy hyz ⊢
    exact String.le_trans hxy hyz
  have htotal : ∀ x y : α, (decide (key x ≤ key y) || decide (key y ≤ key x)) = true := by
    intro x y
    rw [Bool.or_eq_true, decide_eq_true_eq, decide_eq_true_eq]
    exact String.le_total (key x) (key y)
  exact (List.pairwise_mergeSort htrans htotal items).imp fun h => of_decide_eq_true h

theorem pairwise_sortById (records : List Record) :
    (sortById records).Pairwise fun x y => x.id ≤ y.id :=
  pairwise_mergeSort_le Record.id records

/-- Records in the order of their ids, each with an id of its own, are what sorting them gives. -/
theorem eq_sortById {a b : List Record} (hids : (b.map Record.id).Nodup)
    (hsorted : a.Pairwise fun x y => x.id ≤ y.id) (hperm : a.Perm b) : a = sortById b := by
  have hpermSort : a.Perm (sortById b) := hperm.trans (List.mergeSort_perm b _).symm
  refine hpermSort.eq_of_pairwise (fun x y hx hy hxy hyx => ?_) hsorted (pairwise_sortById b)
  have hx : x ∈ b := hperm.subset hx
  have hy : y ∈ b := List.mem_mergeSort.mp hy
  exact List.inj_on_of_nodup_map hids hx hy (String.le_antisymm hxy hyx)

end Record
end Roster
