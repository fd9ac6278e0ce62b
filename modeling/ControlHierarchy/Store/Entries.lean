import ControlHierarchy.Room
import ControlHierarchy.Store.Assignment

/-!
# Assigning entries of a field

Entries of an array are assigned in place, also those of an affine map, and all
who hold the array see the change. The weight that a task gives out is its own
only if one was set; otherwise the assigned entry is lost with the identity
matrix it belonged to. An assignment of entries may be refused halfway, and then
stays as far as it got: each step gives the store it leaves together with its
outcome.
-/

namespace ControlHierarchy

namespace Store

variable {α : Type}

/-- Why no entry can be assigned in an array of an object, if none can. -/
def lock? (s : Store α) : Object → Field → Option Fault
  | .constraint (.leaf i), .system role =>
    if (s.leafConstraints.read i).numbers.contains role then some .badType else none
  | .task (.leaf i), .task role => (s.leafTasks.read i).lockOf role
  | _, _ => none

/-- Assigns entries of an array that is stored somewhere: the store afterwards,
and the outcome. -/
def assignStored [Zero α] (array : Tensor α) (position : Position) (value : ArrayData α)
    (put : Tensor α → Store α) : Store α × Except Error Unit :=
  let (array, outcome) := array.assign position value
  (put array, outcome)

/-- The store after an assignment that was refused as a whole. -/
def refused (s : Store α) (error : Error) : Store α × Except Error Unit := (s, .error error)

/-- Why no entry can be assigned in a field without an array. -/
def noArray (s : Store α) (owner : Object) (field : Field) : Fault :=
  if (s.plainFields owner).contains field then .badType else .noMember

/-- Puts a weight in the place of the one that was set; an identity weight is
given out anew each time. -/
def putWeight (t : TaskRef) (s : Store α) (weight : Tensor α) : Store α :=
  let body := s.taskBody t
  s.setTaskBody t { body with weight := body.weight.map fun _ => weight }

/-- No assignment of entries gives a task a weight that had none. -/
theorem weight_putWeight (t : TaskRef) (s : Store α) (weight : Tensor α) :
    ((s.putWeight t weight).taskBody t).weight = (s.taskBody t).weight.map fun _ => weight := by
  simp [putWeight, taskBody_setTaskBody]

def assignWeightEntry [Zero α] [One α] (t : TaskRef) (position : Position) (value : ArrayData α)
    (s : Store α) : Store α × Except Error Unit :=
  let body := s.taskBody t
  match body.checkRoom, body.weightInForce with
  | .ok (), .ok weight => assignStored weight position value (s.putWeight t)
  | .error e, _ | _, .error e => s.refused e

/-- Assigns entries of the weight that a task keeps, if it keeps one. -/
def assignKeptWeightEntry [Zero α] (t : TaskRef) (position : Position) (value : ArrayData α)
    (s : Store α) : Store α × Except Error Unit :=
  match (s.taskBody t).weight with
  | some weight => assignStored weight position value (s.putWeight t)
  | none => s.refused (.fault .badType)

/-- Puts arrays that have kept their shapes into an affine map. -/
def putMap (id : Nat) (s : Store α) (matrix offset : Tensor α) : Store α :=
  match AffineMap.ofTensors matrix offset with
  | .ok e => { s with affines := s.affines.write id e }
  | .error _ => s

def assignMapEntry [Zero α] (id : Nat) (field : Field) (position : Position) (value : ArrayData α)
    (s : Store α) : Store α × Except Error Unit :=
  let e := s.affines.read id
  let matrix := Tensor.matrix e.matrix
  let offset := Tensor.vector e.offset
  match field with
  | .mapMatrix => assignStored matrix position value fun matrix => s.putMap id matrix offset
  | .mapOffset => assignStored offset position value fun offset => s.putMap id matrix offset
  | field => s.refused (.fault (s.noArray (.affine id) field))

/-- A position as the key of an entry in a table, which it is unless it contains
lists or records. -/
def checkKey (position : Position) : Except Error Unit :=
  if position.any fun | .sequence _ | .record _ => true | _ => false then
    .error (.fault .badType)
  else .ok ()

/-- Assigns entries of an array through a field that stands for them. -/
def assignArrayEntry [Zero α] (t : Tensor α) (field : Field) (position : Position)
    (value : ArrayData α) : Tensor α × Except Error Unit :=
  if field = .ofWord "real" then t.assign position value
  else if field = .ofWord "T" then t.assignTransposed position value
  else if field = .ofWord "flat" then t.carried (t.assignInRow position value)
  else (t, .error (.fault (if field = .ofWord "imag" then .badValue
    else if (Member.ofArrays.map Field.ofWord).contains field then .badType else .noMember)))

/-- Assigns entries of a plain value through one of its fields. -/
def assignValueEntry [Zero α] (id : Nat) (field : Field) (position : Position) (value : ArrayData α)
    (s : Store α) : Store α × Except Error Unit :=
  match s.values.read id with
  | .array cell start =>
    let (part, outcome) := assignArrayEntry (s.window cell start) field position value
    (s.putWindow cell start part, outcome)
  | plain => s.refused (.fault (if plain.answersTo field then .badType else .noMember))

/-- Assigns entries of an array that an object has for itself, if the field holds one. -/
def assignOwnEntry? [Zero α] [One α] (owner : Object) (field : Field) (position : Position)
    (value : ArrayData α) (s : Store α) : Option (Store α × Except Error Unit) :=
  match owner, field with
  | .constraint c, .system role =>
    some (assignStored ((s.constraintSystem c).get role) position value fun array =>
      s.setConstraintArray c role array)
  | .task t, .task role =>
    some (assignStored ((s.taskBody t).get role) position value fun array =>
      s.setTaskArray t role array)
  | .task t, .weight => some (s.assignWeightEntry t position value)
  | .task t, .backing .weight => some (s.assignKeptWeightEntry t position value)
  | .affine id, field => some (s.assignMapEntry id field position value)
  | _, _ => none

/-- Assigns entries where nothing was noted down. The tables of a layout take
entries under keys that are never looked up. -/
def assignElsewhere [Zero α] (owner : Object) (field : Field) (position : Position)
    (value : ArrayData α) (s : Store α) : Store α × Except Error Unit :=
  match owner, field with
  | .value id, field => s.assignValueEntry id field position value
  | .layout _, .backing .offsets | .layout _, .backing .sizes => (s, checkKey position)
  | owner, field => s.refused (.fault (s.noArray owner field))

end Store

namespace Build

variable {α : Type}

/-- Assigns entries of an array that was noted down. All who hold the array see
the change. -/
def assignNotedEntry [Zero α] (owner : Object) (field : Field) (object : Object)
    (position : Position) (value : ArrayData α) : Build α Unit := do
  let s ← get
  let some (.array id _) := s.plain? object | throw (.fault .badType)
  let (array, outcome) := (s.arrays.read id).assign position value
  set ({ s with arrays := s.arrays.write id array }.use owner field (.array array))
  useArray owner field object
  liftExcept outcome

def assignEntry [Zero α] [One α] (owner : Object) (field : Field) (position : Position)
    (value : ArrayData α) : Build α Unit := do
  let s ← get
  if let some cause := s.lock? owner field then throw (.fault cause)
  match s.assignOwnEntry? owner field position value, s.notes.read? owner field with
  | none, some object => assignNotedEntry owner field object position value
  | none, none =>
    let (s, outcome) := s.assignElsewhere owner field position value
    set s
    liftExcept outcome
  | some (s, outcome), _ =>
    set s
    liftExcept outcome

end Build

end ControlHierarchy
