import Roster.Proofs.Store.Answers
import Roster.Proofs.Store.Readable
import Roster.Proofs.Yaml.Tagless

/-!
# Listing documents

A listing passes over every document that its reader reports, and gives the records of all others
that a filter selects.  It breaks off at a fault that no reader reports, which takes a tag or an
escape that is too great.
-/

namespace Roster
namespace Documents

variable {s : Documents} {t : Tree} {octets : ByteArray} {record : Record}

/-!
## The record of a document
-/

/-- The record that a reader of documents finds in the octets of a file. -/
def recordIn? (octets : ByteArray) : Option Record :=
  match Yaml.readTexts octets with
  | .ok found => found
  | .error _ => none

theorem recordIn?_eq_some_iff :
    recordIn? octets = some record ↔
      ∃ text anchor entries, Text.decodeUtf8 octets = .ok text ∧
        Yaml.dataOf (Text.unifyLineEnds text.toList) = .ok (some (.map anchor entries)) ∧
        (Yaml.Datum.map anchor entries).isWritable = true ∧
        record = Entries.setAll [] (entries.map fun (k, v) =>
          (k.text (.map anchor entries), match v with
            | .scalar .null => ""
            | v => v.text (.map anchor entries))) := by
  have hfound : recordIn? octets = some record ↔ Yaml.readTexts octets = .ok (some record) := by
    rw [recordIn?]
    cases Yaml.readTexts octets with
    | ok found => simp
    | error fault => simp
  rw [hfound, Yaml.readTexts, Steps.bind_eq_ok]
  constructor
  · rintro ⟨text, htext, hrest⟩
    rcases Steps.bind_eq_ok.mp hrest with ⟨d, hdata, htexts⟩
    rcases Yaml.textsOf_eq_some_iff.mp htexts with ⟨anchor, entries, rfl, hwritable, hrecord⟩
    exact ⟨text, anchor, entries, Steps.mapError_eq_ok.mp htext, hdata, hwritable, hrecord⟩
  · rintro ⟨text, anchor, entries, htext, hdata, hwritable, hrecord⟩
    refine ⟨text, Steps.mapError_eq_ok.mpr htext, Steps.bind_eq_ok.mpr ⟨_, hdata, ?_⟩⟩
    exact Yaml.textsOf_eq_some_iff.mpr ⟨anchor, entries, rfl, hwritable, hrecord⟩

/-- Every document of the directory is tame. -/
def IsTame (s : Documents) (t : Tree) : Prop :=
  ∀ name, isDocumentName name = true → ∀ octets, t.read (s.directory.child name) = .ok octets →
    Yaml.IsTameFile octets

end Documents
end Roster
