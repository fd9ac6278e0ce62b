import ControlHierarchy.Store.Fields
import ControlHierarchy.Tensor.View

/-!
# Assigning a value to a field

An assignment stores what it is given, without any check. It is noted down
beside the object, and put to use if the object has a use for the field. Fields
that an object computes cannot be assigned, but what it keeps behind them can:
an array in the place of a list is gone through in the list's stead. What is
assigned to an array goes into its entries.
-/

namespace ControlHierarchy

/-- A value that was assigned as it is. -/
inductive Assigned (α : Type) where
  | whole (value : Int)
  | array (value : Tensor α)

namespace Store

variable {α : Type}

def setConstraintArray (c : ConstraintRef) (role : SystemArray) (array : Tensor α) (s : Store α) :
    Store α :=
  match c with
  | .leaf i =>
    { s with
      leafConstraints := s.leafConstraints.write i
        ((s.leafConstraints.read i).setArray role array) }
  | .merged .. => s.setConstraintSystem c ((s.constraintSystem c).set role array)

def setTaskArray (t : TaskRef) (role : TaskArray) (array : Tensor α) (s : Store α) : Store α :=
  match t with
  | .leaf i =>
    { s with leafTasks := s.leafTasks.write i ((s.leafTasks.read i).setArray role array) }
  | .merged .. => s.setTaskBody t ((s.taskBody t).set role array)

def useInConstraint (c : ConstraintRef) (field : Field) (value : Assigned α) (s : Store α) :
    Store α :=
  match c, field, value with
  | c, .system role, .array t => s.setConstraintArray c role t
  | c, .size, .whole n => s.setConstraintSize c n
  | .leaf i, .halfWidth, .array t =>
    { s with
      leafConstraints := s.leafConstraints.write i
        ((s.leafConstraints.read i).setHalfWidth (.array t)) }
  | .merged i _, .policy, .whole n =>
    { s with
      mergedConstraints := s.mergedConstraints.write i
        { s.mergedConstraints.read i with policy := n } }
  | _, _, _ => s

def useInTask (t : TaskRef) (field : Field) (value : Assigned α) (s : Store α) : Store α :=
  match field, value with
  | .task role, .array a => s.setTaskArray t role a
  | .size, .whole n => s.setTaskBody t { s.taskBody t with size := n }
  | .gain, .array a => s.setTaskBody t { s.taskBody t with gain := a }
  | .hessian, .array _ => s.setTaskBody t { s.taskBody t with hessian := none }
  | .backing .weight, .array a => s.setTaskBody t { s.taskBody t with weight := some a }
  | _, _ => s

/-- An array assigned to what a task keeps as its weight is the weight from then on. -/
theorem weight_useInTask (t : TaskRef) (a : Tensor α) (s : Store α) :
    ((s.useInTask t (.backing .weight) (.array a)).taskBody t).weight = some a := by
  simp [useInTask, taskBody_setTaskBody]

def useInStack (id : Nat) (field : Field) (value : Assigned α) (s : Store α) : Store α :=
  let stack := s.stackCells.read id
  match field, value with
  | .size, .whole n => { s with stackCells := s.stackCells.write id { stack with size := n } }
  | .policy, .whole n => { s with stackCells := s.stackCells.write id { stack with policy := n } }
  | _, _ => s

def use (owner : Object) (field : Field) (value : Assigned α) (s : Store α) : Store α :=
  match owner with
  | .constraint c => s.useInConstraint c field value
  | .task t => s.useInTask t field value
  | .stack id => s.useInStack id field value
  | _ => s

def putWindow (id : Nat) (position : List Nat) (s : Store α) (part : Tensor α) : Store α :=
  { s with arrays := s.arrays.write id ((s.arrays.read id).replacePart position part) }

/-- Assigns values to all entries of an array, if the field is one of those that
stand for them. -/
def assignArrayField [Zero α] (t : Tensor α) (field : Field) (values : Tensor α) :
    Except Error (Tensor α) :=
  if field = .ofWord "real" then t.assignAll values
  else if field = .ofWord "flat" then .ok (t.assignRow values.entries)
  else if field = .ofWord "shape" || field = .ofWord "strides" then
    .error (.fault (if values.shape.head? = some 0 then .badValue else .badType))
  else if field = .ofWord "imag" || field = .ofWord "dtype" then .error (.fault .badType)
  else .error (.fault .noMember)

end Store

namespace Build

variable {α : Type}

/-- Keeps an assigned value; an array gets a cell. -/
def keepAssigned : Assigned α → Build α Object
  | .whole n => newValue (.integer n)
  | .array t => newArray t

/-- Puts the elements of an array in the place of a list that an object keeps. -/
def useElements (owner : Object) (field : Field) (elements : List Object) : Build α Unit := do
  let s ← get
  match owner, field with
  | .task t, .constraints => set (s.setTaskBody t { s.taskBody t with constraints := elements })
  | .task (.merged i _), .backing .ownConstraints =>
    set { s with
      mergedTasks := s.mergedTasks.write i { s.mergedTasks.read i with own := elements } }
  | .stack i, .backing .levels =>
    set { s with
      stackCells := s.stackCells.write i { s.stackCells.read i with levels := elements } }
  | .stack i, .backing .bounds =>
    set { s with
      stackCells := s.stackCells.write i { s.stackCells.read i with bounds := elements } }
  | _, _ => pure ()

/-- Makes an object go through the elements of an array that was noted in the
place of a list. -/
def useArray (owner : Object) (field : Field) (value : Object) : Build α Unit := do
  match (← get).plain? value with
  | some (.array id _) => useElements owner field (← arrayElements id)
  | _ => pure ()

/-- Notes an assigned value down and puts it to use. -/
def note (owner : Object) (field : Field) (value : Assigned α) : Build α Unit := do
  let object ← keepAssigned value
  if let .task t := owner then
    if field = .constraints then modify (Store.retire t)
  modify fun s => { s with notes := s.notes.write owner field object }.use owner field value
  useArray owner field object

def assign [Zero α] (owner : Object) (field : Field) (value : Assigned α) : Build α Unit := do
  let s ← get
  match s.plain? owner, value with
  | some (.array id position), .array t =>
    set (s.putWindow id position (← Store.assignArrayField (s.window id position) field t))
  | _, _ =>
    if let some cause := s.immutable? owner then throw (.fault cause)
    if (s.computed owner).contains field then throw (.fault .noMember)
    note owner field value

end Build

end ControlHierarchy
