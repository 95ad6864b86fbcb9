import Roster.Storage.Clock

/-!
# Names of archives

An archive is named after the moment at which it is made, and numbered while the name is taken.
As many numbers as there are taken names, and one more, are enough to find a free one.
-/

namespace Roster
namespace Archive

/-- The name with a number, or without one for the first try. -/
def candidate (base ending : String) : Nat → String
  | 0 => base ++ ending
  | n + 1 => base ++ "_" ++ toString (n + 1) ++ ending

/-- First name in the sequence of candidates that is not taken. -/
def firstFree (base ending : String) (taken : List String) : String :=
  ((List.range (taken.length + 1)).map (candidate base ending)).find? (!taken.contains ·)
    |>.getD (candidate base ending (taken.length + 1))

def name (stem ending : String) (now : Moment) (taken : List String) : String :=
  firstFree (stem ++ "_" ++ now.archiveStamp) ending taken

end Archive
end Roster
