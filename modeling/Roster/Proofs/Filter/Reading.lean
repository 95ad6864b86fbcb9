import Roster.Filter.Parser
import Roster.Proofs.Steps

/-!
# Filters that were read

Reading drops what names no known field and leaves no group empty.
-/

namespace Roster
namespace Filter

/-- Every condition is on a known field, and no group is without conditions. -/
structure IsOver (fields : List String) (f : Filter) : Prop where
  groups_ne : ∀ group ∈ f.groups, group ≠ []
  known : ∀ group ∈ f.groups, ∀ c ∈ group, c.field ∈ fields

theorem isOver_all (fields : List String) : IsOver fields .all where
  groups_ne := fun _ h => nomatch h
  known := fun _ h => nomatch h

theorem known_of_condition? {known : String → Bool} {cs : List Char} {c : Condition}
    (h : (readPart known cs).condition? = some c) : known c.field = true := by
  unfold readPart at h
  split at h
  · cases h
  · split at h
    · cases h
    · split at h
      · rename_i hknown
        cases h
        exact hknown
      · cases h

theorem known_of_mem_readGroup {known : String → Bool} {cs : List Char} {c : Condition}
    (h : c ∈ (readGroup known cs).filterMap Part.condition?) : known c.field = true := by
  rcases List.mem_filterMap.mp h with ⟨part, hpart, hc⟩
  rcases List.mem_map.mp hpart with ⟨text, -, rfl⟩
  exact known_of_condition? hc

theorem isOver_parse {known : String → Bool} {fields : List String}
    (h : ∀ name, known name = true → name ∈ fields) (s : String) :
    IsOver fields (parse known s) := by
  unfold parse
  split
  · exact isOver_all fields
  · constructor
    · intro group hgroup
      have hne := (List.mem_filter.mp hgroup).2
      rwa [Bool.not_eq_true', List.isEmpty_eq_false_iff] at hne
    · intro group hgroup c hc
      rcases List.mem_map.mp (List.mem_filter.mp hgroup).1 with ⟨parts, hparts, rfl⟩
      rcases List.mem_map.mp hparts with ⟨text, -, rfl⟩
      exact h c.field (known_of_mem_readGroup hc)

theorem isOver_ofValue {v : Value} {fields : List String} {f : Filter}
    (h : ofValue v (.list (fields.map .str)) = .ok f) : IsOver fields f := by
  unfold ofValue at h
  split at h
  · cases h
    exact isOver_all fields
  · split at h
    · split at h
      · cases h
        exact isOver_all fields
      · rcases Steps.bind_eq_ok.mp h with ⟨items, hitems, h⟩
        cases hitems
        rcases Steps.bind_eq_ok.mp h with ⟨known, hknown, h⟩
        cases h
        have hkeys : (fields.map Value.str).mapM Value.asKey = .ok (fields.map Value.str) := by
          rw [Steps.mapM_eq_ok (f := Value.asKey) (g := id), List.map_id]
          intro v hv
          rcases List.mem_map.mp hv with ⟨name, -, rfl⟩
          rfl
        rw [hkeys] at hknown
        cases hknown
        refine isOver_parse (fun name hname => ?_) _
        rw [List.contains_iff_mem] at hname
        rcases List.mem_map.mp hname with ⟨field, hfield, heq⟩
        cases heq
        exact hfield
    · cases h

end Filter
end Roster
