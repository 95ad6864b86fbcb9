import Roster.Proofs.Store.Beside
import Roster.Proofs.Value.Kinds

/-!
# Schemas that make a table

Names of fields are told apart by every letter, names of columns are not; and a statement takes some
names for a parameter.  Whether a table can be made is seen at the schema alone.
-/

namespace Roster

namespace TableStore

variable {schema : Schema}

end TableStore
end Roster
