import Roster.Proofs.Registry.Setups
import Roster.Proofs.Store.Columns

/-!
# Fresh directories

In a directory where nothing is in use, the storage of any backend can be prepared and the manifest
written beside it.  What was prepared is not touched by what is written beside it.
-/

namespace Roster

open Roster.Tree

/-!
## Storage is prepared where nothing was
-/

namespace Sheet

variable {s : Sheet} {t : Tree}

end Sheet

namespace Documents

variable {parent : Path} {t : Tree}

end Documents

namespace TableStore

variable {directory : Path} {schema : Schema} {t : Tree}

end TableStore

namespace Registry
namespace Installation

variable {directory : Path} {t : Tree}

end Installation

end Registry
end Roster
