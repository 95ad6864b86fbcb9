import Roster.Proofs.Steps
import Roster.Value.Pairs

/-!
# Values of the right kind

Values are read on the assumption that they are of some kind: that they have items, that they can be
keys, or that they are made of pairs.  Each reading succeeds on just the values of its kind.
-/

namespace Roster
namespace Value

/-- The value has items to go through. -/
def isIterable : Value → Bool
  | .str _ | .list _ | .map _ => true
  | _ => false

/-- The value is neither a list nor a map. -/
def isScalar : Value → Bool
  | .list _ | .map _ => false
  | _ => true

theorem exists_items_iff {v : Value} : (∃ items, v.items = .ok items) ↔ v.isIterable = true := by
  cases v with
  | str s => exact iff_of_true ⟨_, rfl⟩ rfl
  | list items => exact iff_of_true ⟨_, rfl⟩ rfl
  | map entries => exact iff_of_true ⟨_, rfl⟩ rfl
  | _ => simp [items, isIterable]

theorem asKey_eq_ok_iff {v key : Value} : v.asKey = .ok key ↔ v.isScalar = true ∧ key = v := by
  cases v with
  | list items => simp [asKey, isScalar]
  | map entries => simp [asKey, isScalar]
  | _ => simp [asKey, isScalar, eq_comm]

theorem exists_asKey_iff {v : Value} : (∃ key, v.asKey = .ok key) ↔ v.isScalar = true := by
  simp only [asKey_eq_ok_iff, exists_and_left, exists_eq, and_true]

theorem mapM_asKey_eq_ok {vs keys : List Value} (h : vs.mapM asKey = .ok keys) : keys = vs := by
  induction vs generalizing keys with
  | nil =>
      cases h
      rfl
  | cons v rest ih =>
      rw [List.mapM_cons] at h
      rcases Steps.bind_eq_ok.mp h with ⟨key, hkey, h⟩
      rcases Steps.bind_eq_ok.mp h with ⟨others, hothers, h⟩
      cases h
      rw [(asKey_eq_ok_iff.mp hkey).2, ih hothers]

/-- The value has two items, and the first can be a key. -/
def IsPair (v : Value) : Prop :=
  ∃ key value, v.items = .ok [key, value] ∧ key.isScalar = true

/-- The value is a map, or all its items are pairs. -/
def IsPairs (v : Value) : Prop :=
  (∃ entries, v = .map entries) ∨ ∃ items, v.items = .ok items ∧ ∀ item ∈ items, item.IsPair

theorem exists_pair_iff {index : Nat} {v : Value} :
    (∃ entry, pair index v = .ok entry) ↔ v.IsPair := by
  unfold pair
  rw [Steps.exists_bind_iff]
  constructor
  · rintro ⟨parts, hparts, entry, hentry⟩
    split at hentry
    · rename_i key value
      rcases Steps.bind_eq_ok.mp hentry with ⟨k, hk, -⟩
      exact ⟨key, value, hparts, (asKey_eq_ok_iff.mp hk).1⟩
    · cases hentry
  · rintro ⟨key, value, hparts, hkey⟩
    refine ⟨[key, value], hparts, (key.keyText, value), ?_⟩
    dsimp only
    rw [asKey_eq_ok_iff.mpr ⟨hkey, rfl⟩]
    rfl

theorem exists_mapM_pair_iff {items : List Value} :
    (∃ entries, (items.zipIdx.mapM fun (item, index) => pair index item) = .ok entries) ↔
      ∀ item ∈ items, item.IsPair := by
  simp only [Steps.exists_mapM_iff, exists_pair_iff]
  constructor
  · intro h item hitem
    rw [← List.zipIdx_map_fst 0 items] at hitem
    rcases List.mem_map.mp hitem with ⟨entry, hentry, rfl⟩
    exact h entry hentry
  · intro h entry hentry
    exact h entry.1 (List.fst_mem_of_mem_zipIdx hentry)

theorem exists_pairs_iff {v : Value} : (∃ entries, v.pairs = .ok entries) ↔ v.IsPairs := by
  by_cases hmap : ∃ entries, v = .map entries
  · rcases hmap with ⟨entries, rfl⟩
    exact iff_of_true ⟨entries, rfl⟩ (Or.inl ⟨entries, rfl⟩)
  · have hother : ∀ entries, v = .map entries → False := fun entries heq => hmap ⟨entries, heq⟩
    rw [pairs, IsPairs, or_iff_right hmap]
    · rw [Steps.exists_bind_iff]
      constructor
      · rintro ⟨items, hitems, made, hmade⟩
        rcases Steps.bind_eq_ok.mp hmade with ⟨entries, hentries, -⟩
        exact ⟨items, hitems, exists_mapM_pair_iff.mp ⟨entries, hentries⟩⟩
      · rintro ⟨items, hitems, hpairs⟩
        rcases exists_mapM_pair_iff.mpr hpairs with ⟨entries, hentries⟩
        refine ⟨items, hitems, Entries.setAll [] entries, ?_⟩
        rw [hentries]
        rfl
    · exact hother

end Value
end Roster
