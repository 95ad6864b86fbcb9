import Roster.Proofs.Registry.Simulation
import Roster.Proofs.Store.Preparation
import Roster.Proofs.Store.Texts

/-!
# Backends are interchangeable

A reply says nothing about the backend: registries with the same schema give the same replies on a
table, on a file and on documents that were all set up without records.
-/

namespace Roster
namespace Registry

/-!
## Registries
-/

section Congruence

variable {σ : Type} [RecordStore σ] {r r' : Registry}

end Congruence

/-!
## Stores of all backends
-/

/-- A registry that keeps a note of each user. -/
def noteRegistry : Registry where
  manifest := { backend := "", state := [], schema := noteSchema }

theorem isIdentifier_noteSchema :
    ∀ name ∈ noteSchema.fields, Shape.isIdentifier name.toList = true := by
  decide +kernel

theorem exists_isSetUp_noteSchema (backend : Backend) :
    ∃ m : Mounted Store, m.IsSetUp backend noteSchema := by
  have hprepared : ((backend.prepare (.ofText "") noteSchema [] 0).run {}).1.isOk = true := by
    cases backend <;> decide +kernel
  exact Mounted.exists_isSetUp sound_noteSchema
    (fun _ name hname => ColumnName.unshield_of_isIdentifier (isIdentifier_noteSchema name hname))
    Tree.isSound_empty rfl hprepared

end Registry
end Roster
