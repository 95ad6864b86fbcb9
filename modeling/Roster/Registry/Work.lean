import Roster.Registry.Users
import Roster.Store.Work

/-!
# Requests at work

A registry first decides what a request comes to, looking at the store only.  If the store is to be
changed, that is done step by step, and the answer tells whether it was done.
-/

namespace Roster

/-- A store that is only looked at; it notes what it is asked to change. -/
structure Recorder where
  store : Store
  tree : Tree
  noted : Option Write := none

instance : RecordStore Recorder where
  insert m now id record := .ok { m with noted := some (.insert now id record) }
  fetch m id := m.store.fetch m.tree id
  update m now id changes := .ok { m with noted := some (.update now id changes) }
  remove m id := .ok { m with noted := some (.remove id) }
  list m filter := m.store.list m.tree filter

namespace Registry

/-- Requests may be broken off; the tree as it is by then remains. -/
abbrev Errand := ExceptT Fault (StateM Tree)

/-- Carry out what is decided on a store that is only looked at. -/
def carryOut (tools : Equipment) (store : Store)
    (decide_ : Recorder → Except Fault (UserAnswer × Recorder)) : Errand UserAnswer := do
  let (answer, m) ← decide_ { store, tree := ← MonadState.get }
  match m.noted with
  | none => return answer
  | some write => do
      let (result, tree) := (store.applying tools write).run (← MonadState.get)
      set tree
      match ← Failure.settle result with
      | .ok () => return answer
      | .error refusal => return { answer with outcome := .refused (.store refusal) }

def registering (r : Registry) (tools : Equipment) (store : Store) (now : Moment) (data : Value) :
    Errand UserAnswer :=
  carryOut tools store fun m => r.register m now data

def updating (r : Registry) (tools : Equipment) (store : Store) (now : Moment)
    (id changes : Value) : Errand UserAnswer :=
  carryOut tools store fun m => r.update m now id changes

def deleting (tools : Equipment) (store : Store) (id : Value) : Errand UserAnswer :=
  carryOut tools store fun m => delete m id

end Registry
end Roster
