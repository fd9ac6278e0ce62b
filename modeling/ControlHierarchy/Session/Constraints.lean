import ControlHierarchy.Session.Command
import ControlHierarchy.Session.Listing
import ControlHierarchy.Session.Operand
import ControlHierarchy.Store.Assembly

/-!
# Commands on constraints

Leaf constraints are built from their arrays, aggregates from their parts. Only
the constraints with validated arrays have setters, and only aggregates check
arrays as merged ones.
-/

namespace ControlHierarchy

namespace Session

open Script

/-- The number that stands for an absent array. -/
def absentArray : ArrayData Float := .number Double.undefined

def newConstraint (c : Except Error (LeafConstraint Float)) : Script Object := do
  return .constraint (← build (Build.newLeafConstraint (← accept c)))

def arrangedHalfWidth (value : Literal) : HalfWidth Float :=
  let data := ArrayData.ofRaw value
  let leaves := value.leaves
  match data.parts? with
  | none => .unusable .badValue
  | some (shape, _) =>
    if leaves.any fun | .absent | .record _ => true | _ => false then
      ((Tensor.generate? shape fun _ => 0).map .entries).getD (.unusable .badValue)
    else if leaves.any fun | .text _ => true | _ => false then .unusable .noEntrywise
    else
      match data.read with
      | .ok t => .array t
      | .error (.fault cause) => .unusable cause
      | .error _ => .unusable .badValue

def halfWidthOf (value : Literal) : Except Error (HalfWidth Float) := do
  match ← loneNumber? value with
  | some x => return .array (.scalar x)
  | none => return arrangedHalfWidth value

/-- What an aggregate checks before it looks at its parts: the state, if it is
built from one, and the policy. -/
def checkAhead (state : Option (ArrayData Float)) (policy : Literal) : Except Error Unit := do
  if let some state := state then
    let _ ← (← state.read).leading
  let _ ← Policy.validate policy

/-- Builds an aggregate of objects that should all be constraints; one that is
not is noticed after the other checks. -/
def mergeObjects (objects : List Object) (ahead : Except Error Unit)
    (merge : List ConstraintRef → Build Float ConstraintRef) : Script Object := do
  match objects.mapM Object.asConstraint with
  | .ok parts => return .constraint (← build (merge parts))
  | .error e =>
    accept ahead
    refuse e

/-- The cell of a leaf constraint with validated arrays, the only sort that has setters. -/
def validatedCell (object : Object) : Script Nat := do
  let c ← accept object.asConstraint
  match c, (← getStore).constraintSort c with
  | .leaf i, .validated => return i
  | _, _ => fault .noMember

def setThrough (object : Object) (operation : Operation) (data : List (Option (ArrayData Float)))
    (setter : LinearSystem Float → String → Int → Except Error (LinearSystem Float)) :
    Script Object := do
  requireCallable object operation (data.filterMap id)
  let i ← validatedCell object
  accept (ArrayData.checkUsable (data.filterMap id))
  build (Build.setSystem i setter)
  return object

/-- An array that is given, or stands for an absent one. -/
def readGiven (data : Option (ArrayData Float)) : Except Error (Tensor Float) :=
  (data.getD absentArray).read

def readSystem (data : SystemData Float) : Except Error (LinearSystem Float) := do
  return {
    boxLower := ← readGiven data.boxLower
    boxUpper := ← readGiven data.boxUpper
    equalityMatrix := ← readGiven data.equalityMatrix
    equalityRhs := ← readGiven data.equalityRhs
    rowMatrix := ← readGiven data.rowMatrix
    rowLower := ← readGiven data.rowLower
    rowUpper := ← readGiven data.rowUpper }

/-- Checks given arrays as if an aggregate had merged them. -/
def checkMerged (object : Object) (data : SystemData Float) : Script Object := do
  let s ← getStore
  match object, s.isReplaced object .checkMerged with
  | _, true =>
    let _ ← accept (readSystem data)
    fault .badType
  | .constraint (.merged i _), false =>
    let c := s.mergedConstraints.read i
    accept ((← accept (readSystem data)).checkMerged (Policy.ofWord c.policy) c.name c.size)
    return Store.passed
  | _, false => fault .noMember

/-- Whether an object is a constraint of a sort; without a sort, whether it is a
constraint at all. -/
def isOfSort (s : Store Float) (sort : Option ConstraintSort) : Object → Bool
  | .constraint c =>
    match sort with
    | some sort => s.constraintSort c = sort
    | none => true
  | _ => false

def searchSpace : SearchSpace → Script (List Object)
  | .among names => names.mapM find
  | .on name => do
    let object ← find name
    requireCallable object .findConstraint []
    let t ← accept object.asTask
    accept ((← getStore).attached t)

def performConstraint : ConstraintCommand → Script Object
  | .validated name size data => do
    accept (ArrayData.checkUsable data.given)
    newConstraint (LeafConstraint.validated name size data)
  | .unvalidated name size data => do
    accept (ArrayData.checkUsable data.given)
    newConstraint (LeafConstraint.unvalidated name size data)
  | .boxAround name size halfWidth => do
    newConstraint (LeafConstraint.boxAround name size (← accept (halfWidthOf halfWidth)))
  | .rowsAround name size halfWidth => do
    newConstraint (LeafConstraint.rowsAround name size (← accept (halfWidthOf halfWidth)))
  | .merge parts size policy => do
    mergeObjects (← parts.mapM find) (checkAhead none policy) fun cs =>
      Build.mergeConstraints cs size policy
  | .mergeAtState parts state policy => do
    let objects ← parts.mapM find
    accept (ArrayData.checkUsable [state])
    mergeObjects objects (checkAhead (some state) policy) fun cs =>
      Build.mergeConstraintsAtState cs state policy
  | .setBox target lower upper => do
    setThrough (← find target) .setBox [lower, upper] fun s name size =>
      s.setBox name size lower upper
  | .setEqualities target matrix rightHandSide => do
    setThrough (← find target) .setEqualities [matrix, rightHandSide] fun s name size =>
      s.setEqualities name size matrix rightHandSide
  | .setInequalities target matrix lower upper => do
    let object ← find target
    accept (ArrayData.checkUsable (lower.toList ++ upper.toList))
    setThrough object .setInequalities [matrix] fun s name size =>
      s.setInequalities name size matrix lower upper
  | .checkMerged target data => do checkMerged (← find target) data
  | .joinNames constraints => do
    match ← accept ((← constraints.mapM find).mapM Object.asConstraint) with
    | [c] => nameOf (.constraint c)
    | cs => newValue (.text (joinNames (cs.map (← getStore).constraintName)))
  | .find space sort => do
    let objects ← searchSpace space
    let found := objects.find? (isOfSort (← getStore) sort)
    return found.getD .nothing
  | .findAll names sort => do
    let objects ← names.mapM find
    newValue (.sequence (objects.filter (isOfSort (← getStore) sort)))

end Session

end ControlHierarchy
