import Roster.Text.Blank
import Roster.Text.Case

/-!
# Runtime settings

The environment can switch validation off for trusted imports.
-/

namespace Roster
namespace Settings

def bypassWords : List String := ["1", "true", "yes", "on"]

/-- The value of the environment switches validation off; unset it does not. -/
def skipsValidation (setting : Option String) : Bool :=
  bypassWords.contains (Text.lower (Text.strip (setting.getD "")))

end Settings
end Roster
