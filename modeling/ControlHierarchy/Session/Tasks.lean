import ControlHierarchy.Record
import ControlHierarchy.Session.Operand
import ControlHierarchy.Store.Fields
import ControlHierarchy.Store.Program

/-!
# Commands on tasks

Tasks are built, changed in place, and handed over as objectives and quadratic
programs. All tasks have a gain, a weight and constraints; only those with
explicit arrays have a setter for them.
-/

namespace ControlHierarchy

namespace Session

open Script

def newTask (t : Except Error (LeafTask Float)) : Script Object := do
  return .task (← build (Build.newLeafTask (← accept t)))

/-- Builds an aggregate of objects that should all be tasks; one that is not is
noticed after the state. -/
def mergeTaskObjects (objects : List Object) (ahead : Except Error Unit)
    (merge : List TaskRef → Build Float TaskRef) : Script Object := do
  match objects.mapM Object.asTask with
  | .ok parts => return .task (← build (merge parts))
  | .error e =>
    accept ahead
    refuse e

def checkState (state : ArrayData Float) : Except Error Unit := do
  let _ ← (← state.read).leading

def changeBody (object : Object) (change : TaskBody Float → Except Error (TaskBody Float)) :
    Script Object := do
  let t ← accept object.asTask
  let s ← getStore
  let body ← accept (change (s.taskBody t))
  setStore (s.setTaskBody t body)
  return object

def changeTask (object : Object) (operation : Operation) (arguments : List (ArrayData Float))
    (change : TaskBody Float → Except Error (TaskBody Float)) : Script Object := do
  requireCallable object operation arguments
  changeBody object change

def setTaskArrays (object : Object) (matrix reference : Option (ArrayData Float)) :
    Script Object := do
  let arguments := matrix.toList ++ reference.toList
  requireCallable object .setArrays arguments
  let t ← accept object.asTask
  if (← getStore).taskSort t ≠ .explicit then fault .noMember
  accept (ArrayData.checkUsable arguments)
  changeBody object (TaskBody.setArrays matrix reference)

/-- Drops what was assigned to a field of an object, now that it has a value of
its own again. -/
def settle (object : Object) (field : Field) : Script Unit := do
  let s ← getStore
  setStore { s with notes := s.notes.erase object field }

/-- Notes the label of a Hessian down, which objects other than tasks do not use. -/
def noteHessian (object : Object) (label : HessianLabel) : Script Unit := do
  let value ← newValue (.label label)
  let s ← getStore
  setStore { s with notes := s.notes.write object .hessian value }

def setHessian (object : Object) (label : Option HessianLabel) : Script Object := do
  match label with
  | none => fault .badValue
  | some label =>
    if let some cause := (← getStore).immutable? object then fault cause
    match object with
    | .task _ =>
      settle object .hessian
      changeBody object fun body => .ok { body with hessian := some label }
    | _ =>
      noteHessian object label
      return object

def setGain (object : Object) (gain : Literal) : Script Object := do
  let result ← changeTask object .setGain [ArrayData.ofScalar gain] fun body => do
    body.setGain (← loneNumber? gain)
  settle object .gain
  return result

/-- The objective of a task, and its value at a point. -/
def objective (object : Object) (x : Option (ArrayData Float)) : Script Object := do
  requireCallable object .objective []
  let t ← accept object.asTask
  let o ← accept ((← getStore).taskBody t).objectiveInRoom
  match x with
  | none => newValue (.record (o.record none))
  | some x => newValue (.record (o.record (some (← accept (do o.valueInRoom (← x.read))))))

/-- The program of a task and possibly one more constraint. -/
def problem (object : Object) (extra : Option Object) : Script Object := do
  requireCallable object .objective []
  let t ← accept object.asTask
  let extra := match extra with
    | some .nothing => none
    | extra => extra
  accept ((← getStore).taskBody t).checkObjective
  newValue (.record (← build (Build.problem t extra)).record)

def performTask : TaskCommand → Script Object
  | .explicit name matrix reference gain => do
    let gain ← accept (loneNumber? gain)
    accept (ArrayData.checkUsable (matrix :: reference.toList))
    newTask (LeafTask.explicit name matrix reference gain)
  | .opposing name size gain => do
    newTask (LeafTask.opposing name size (← accept (loneNumber? gain)))
  | .onTarget name target => newTask (LeafTask.onTarget name target)
  | .merge parts size => do
    mergeTaskObjects (← parts.mapM find) (pure ()) fun ts => Build.mergeTasks ts size
  | .mergeAtState parts state => do
    let objects ← parts.mapM find
    accept (ArrayData.checkUsable [state])
    mergeTaskObjects objects (checkState state) fun ts => Build.mergeTasksAtState ts state
  | .setGain target gain => do setGain (← find target) gain
  | .setWeight target weight => do
    changeTask (← find target) .setWeight [weight] (TaskBody.setWeight weight)
  | .resetWeight target => do
    changeTask (← find target) .resetWeight [] fun body => .ok body.resetWeight
  | .setArrays target matrix reference => do setTaskArrays (← find target) matrix reference
  | .attach target constraint => do
    let object ← find target
    let other ← find constraint
    requireCallable object .attach []
    build (Build.attach (← accept object.asTask) other)
    return object
  | .setHessian target label => do setHessian (← find target) label
  | .objective target x => do objective (← find target) x
  | .problem target constraint => do
    let object ← find target
    problem object (← constraint.mapM find)

end Session

end ControlHierarchy
