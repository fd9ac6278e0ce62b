import ControlHierarchy.Session.Constraints
import ControlHierarchy.Session.Maps
import ControlHierarchy.Session.Tasks

/-!
# Running commands

A command finds all the objects it names before it does anything. It then
results in an object, which gets its name, and answers with a report on it as it
is then. The report on an object may be refused in its turn; whatever a refused
command has changed by then stays changed.
-/

namespace ControlHierarchy

namespace Session

open Script

def perform : Command → Script Object
  | .constraint command => performConstraint command
  | .task command => performTask command
  | .stack command => performStack command
  | .object command => performObject command
  | .map command => performMap command

def answer (object : Object) (name : Option String) : Script Report := do
  if let some name := name then bind name object
  accept ((← getStore).report object)

/-- Runs a command, names its result, and answers with a report and the lines
that went to the log meanwhile. -/
def step (command : Command) (name : Option String) (session : Session) :
    Except Failure Report × List Event × Session :=
  let session := { session with store := { session.store with journal := [] } }
  let (result, session) := (do answer (← perform command) name : Script Report).run.run session
  (result, session.store.journal, session)

end Session

end ControlHierarchy
