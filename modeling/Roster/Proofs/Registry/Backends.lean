import Roster.Proofs.Registry.Fresh
import Roster.Proofs.Setup.Rules

/-!
# One setup for every backend

In a directory where nothing is in use, a file and documents take the same setups, whatever the
fields.  A table takes those whose schema makes one.  A store keeps the texts in all fields whose
names its backend gives back.
-/

namespace Roster

open Roster.Tree

/-!
## The backend is one setting among others
-/

namespace Setup

/-- The settings with another backend. -/
def onBackend (settings : Entries) (backend : Backend) : Entries :=
  Entries.set settings "backend" (.str backend.name)

variable {settings : Entries} {key : String}

end Setup

namespace Backend

variable {backend : Backend} {store : Store} {record : Record}

end Backend

namespace Registry
/-!
## Setups that are done
-/

def SetsUp (now : Moment) (config : Value) (t : Tree) : Prop :=
  ((setup now config).run t).1.toOption.any SetupAnswer.success = true

variable {settings : Entries} {text : String} {t : Tree} {now : Moment} {backend : Backend}

theorem check_sheetSettings {field : String} (hne : field ≠ "") :
    Setup.check (.map (sheetSettings field)) = .ok (sheetSettings field) := by
  rcases Steps.bind_eq_ok.mp (plan_sheetSettings hne) with ⟨settings, hcheck, hplan⟩
  rcases Steps.bind_eq_ok.mp hplan with ⟨_, -, hplan⟩
  rcases Steps.bind_eq_ok.mp hplan with ⟨_, -, hplan⟩
  cases hplan
  exact Steps.mapError_eq_ok.mp hcheck

/-- A name that is taken for a parameter is set up for a file, but not for a table. -/
theorem not_setsUp_alike_of_parameter :
    Setup.check (.map (sheetSettings "at :time")) = .ok (sheetSettings "at :time") ∧
      SetsUp 0 (.map (Setup.onBackend (sheetSettings "at :time") .file)) {} ∧
      ¬SetsUp 0 (.map (Setup.onBackend (sheetSettings "at :time") .database)) {} := by
  have hfile : SetsUp 0 (.map (Setup.onBackend (sheetSettings "at :time") .file)) {} := by
    unfold SetsUp
    decide +kernel
  have htable : ¬SetsUp 0 (.map (Setup.onBackend (sheetSettings "at :time") .database)) {} := by
    unfold SetsUp
    decide +kernel
  exact ⟨check_sheetSettings (by decide), hfile, htable⟩

end Registry
end Roster
