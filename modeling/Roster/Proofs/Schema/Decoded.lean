import Roster.Proofs.Json.RoundTrip
import Roster.Proofs.Schema.Storable

/-!
# Definitions that were read once

Reading settles every attribute: what was read from one map and written as another is read from
that one as the same definition, with or without a document in between.
-/

namespace Roster
namespace Definition

/-- The key that stands for further attributes is not kept. -/
theorem extrasName_notMem_addEntry {d d' : Definition} {entry : String × Value}
    (h : Attribute.extrasName ∉ Entries.keys d.extras) (hadd : d.addEntry entry = .ok d') :
    Attribute.extrasName ∉ Entries.keys d'.extras := by
  unfold addEntry at hadd
  split at hadd
  · rename_i a ha
    cases a with
    | options | cleanOptions | maxLength =>
        rcases Steps.map_eq_ok.mp hadd with ⟨_, -, rfl⟩
        exact h
    | _ =>
        cases hadd
        exact h
  · split at hadd
    · cases hadd
      exact h
    · rename_i hother
      cases hadd
      intro hmem
      rcases List.mem_map.mp hmem with ⟨extra, hextra, hname⟩
      rcases Entries.mem_set hextra with rfl | hold
      · exact hother (beq_iff_eq.mpr hname)
      · exact h (hname ▸ List.mem_map_of_mem hold)

theorem reread_of_ofEntries {entries : Entries} {d : Definition} (h : ofEntries entries = .ok d) :
    d.reread = d := by
  rcases Steps.bind_eq_ok.mp h with ⟨last, hlast, hnamed⟩
  rw [reread_eq_self_iff]
  split at hnamed
  · cases hnamed
    exact Steps.foldlM_keeps (P := fun d => Attribute.extrasName ∉ Entries.keys d.extras)
      (fun entry _ d d' hd => extrasName_notMem_addEntry hd) List.not_mem_nil hlast
  · cases hnamed

/-- A definition that was read from a map of a document is read again from the map that it is
written as, with every attribute and every extra, also when that map has gone through a document of
its own.  So reading and writing change a map at most once. -/
theorem decoded_of_ofEntries {data : Entries} (hdata : (Value.map data).IsDocument) {d : Definition}
    (hread : ofEntries data = .ok d) :
    ofEntries d.toEntries = .ok d ∧
      (∃ v, Json.read (Json.write d.toValue ++ "\n") = .ok v ∧ ofValue v = .ok d) ∧
      (ofEntries d.toEntries).map toEntries = (ofEntries data).map toEntries := by
  have hstorable : d.IsStorable := by
    cases hdata with
    | map _ hvalues => exact isStorable_ofEntries hvalues hread
  have hagain : ofEntries d.toEntries = .ok d := by
    rw [hstorable.ofEntries_toEntries, reread_of_ofEntries hread]
  refine ⟨hagain, ⟨d.toValue, Json.read_write hstorable.isDocument, hagain⟩, ?_⟩
  rw [hagain, hread]

/-- Attributes that are given in other forms than they are kept in. -/
def looseEntries : Entries := [
  ("badge", .map [("size", .float (.finite false (3 * 2 ^ 51) (-51)))]),
  ("type", .list [.str "x", .null]), ("max_length", .str " 1_2 "), ("required", .str " Yes\n"),
  ("label", .null), ("default", .bool true), ("options", .map [("*a", .null), ("b", .int 1)]),
  ("clean_options", .list [.null, .int (-3)]), ("extras", .map [("lost", .null)]),
  ("field_name", .str "loose")]

def loose : Definition where
  fieldName := .str "loose"
  kind := .list [.str "x", .null]
  required := true
  options := ["*a", "b"]
  cleanOptions := ["", "-3"]
  default := some "True"
  maxLength := some 12
  extras := [("badge", .map [("size", .float (.finite false (3 * 2 ^ 51) (-51)))])]

theorem isDocument_looseEntries : (Value.map looseEntries).IsDocument := by
  refine .map (by decide) ?_
  simp only [looseEntries, List.forall_mem_cons, List.not_mem_nil, false_imp_iff, implies_true,
    and_true]
  refine ⟨.map (by decide) ?_, .list ?_, .str _, .str _, .null, .bool _, .map (by decide) ?_,
    .list ?_, .map (by decide) ?_, .str _⟩
  · simpa using Value.IsDocument.float (by simp [Double.Canonical, Double.minExponent,
      Double.maxExponent])
  · simpa using ⟨Value.IsDocument.str _, Value.IsDocument.null⟩
  · simpa using ⟨Value.IsDocument.null, Value.IsDocument.int (by decide)⟩
  · simpa using ⟨Value.IsDocument.null, Value.IsDocument.int (by decide)⟩
  · simpa using Value.IsDocument.null

theorem decoded_of_ofEntries_of_loose :
    (Value.map looseEntries).IsDocument ∧ ofEntries looseEntries = .ok loose ∧
      ofEntries loose.toEntries = .ok loose ∧
      ∃ v, Json.read (Json.write loose.toValue ++ "\n") = .ok v ∧ ofValue v = .ok loose := by
  have hread : ofEntries looseEntries = .ok loose := Steps.eq_ok_of_toOption (by decide +kernel)
  have hdecoded := decoded_of_ofEntries isDocument_looseEntries hread
  exact ⟨isDocument_looseEntries, hread, hdecoded.1, hdecoded.2.1⟩

end Definition
end Roster
