import Roster.Proofs.Steps
import Roster.Proofs.Value.Entries
import Roster.Setup.Rules

/-!
# Setups that are accepted

A setup has no issues if no setting is missing and each meets its rule.  What a value looks like that
meets a rule is said here for each shape that a rule can ask for.
-/

namespace Roster

/-!
## Shapes
-/

namespace Shape

variable {v : Value}

end Shape

/-!
## Settings
-/

namespace Setup

end Setup
end Roster
