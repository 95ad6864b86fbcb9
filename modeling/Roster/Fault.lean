import Roster.Setup.Fault
import Roster.Storage.Outage
import Roster.Text.Utf8
import Roster.Value.Fault
import Roster.Yaml.Fault

/-!
# Why an operation is broken off

Most failures are answers.  An operation is broken off only for a value of the wrong kind, for a
configuration that cannot be used, or for storage that cannot be reached.
-/

namespace Roster

/-- Why an operation is broken off. -/
inductive Fault where
  | value (fault : ValueFault)
  | configuration (fault : ConfigurationFault)
  | undecodable (fault : Text.Utf8Fault)
  /-- A document whose values cannot be what they claim to be. -/
  | document (fault : Yaml.Fault)
  | unavailable (outage : Outage)
  /-- The store was closed. -/
  | closed
  deriving DecidableEq, Repr

namespace Fault

def message : Fault → String
  | .value fault => fault.message
  | .configuration fault => fault.message
  | .undecodable fault => fault.message
  | .document fault => fault.message ""
  | .unavailable outage => outage.message
  | .closed => "Database store is closed"

end Fault

instance : MonadLift (Except ValueFault) (Except Fault) where
  monadLift r := r.mapError .value

instance : MonadLift (Except ConfigurationFault) (Except Fault) where
  monadLift r := r.mapError .configuration

end Roster
