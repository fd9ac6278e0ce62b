import ControlHierarchy.Member
import ControlHierarchy.Store.Values

/-!
# The fields that objects have

Some fields an object keeps, some it computes, and some are its operations.
Which ones there are depends on the sort of the object and on the rule that its
arrays follow. Nothing at all can be noted down for an affine map, which is
immutable as a whole, nor for a plain value that is not a policy.
-/

namespace ControlHierarchy

namespace Store

variable {α : Type}

def computedByConstraint : ConstraintRef → List Field
  | .leaf _ => []
  | .merged .. => [.constraints, .bilateral, .foldsEqualities]

def computedByTask : TaskRef → List Field
  | .leaf _ => [.rows, .weight, .defaultWeight]
  | .merged .. => [.rows, .weight, .defaultWeight, .tasks, .ownConstraints]

def computed (s : Store α) : Object → List Field
  | .constraint c => computedByConstraint c
  | .task t => computedByTask t
  | .stack _ => [.levels, .bounds]
  | .layout _ => [.totalSize, .names]
  | .affine _ => [.inputs, .outputs]
  | .value id => (s.values.read id).fixedFields
  | .nothing => []

/-- What an object keeps to compute fields from, if it is not an array. -/
def backings : Object → List Backing
  | .constraint (.merged ..) => [.constraints]
  | .task (.merged ..) => [.tasks, .ownConstraints]
  | .stack _ => [.levels, .bounds, .mergedBounds]
  | .layout _ => [.offsets, .sizes, .names, .totalSize]
  | _ => []

def operationsOfRule : ConstraintRule α → List Operation
  | .validated => Operation.ofConstraints ++ Operation.ofValidated
  | _ => Operation.ofConstraints

def operations (s : Store α) : Object → List Operation
  | .constraint (.leaf i) => operationsOfRule (s.leafConstraints.read i).rule
  | .constraint (.merged ..) =>
    Operation.ofConstraints ++ Operation.ofAggregates ++ Operation.ofMerges
  | .task (.leaf i) =>
    match (s.leafTasks.read i).rule with
    | .explicit => Operation.ofTasks ++ [.setArrays]
    | _ => Operation.ofTasks
  | .task (.merged ..) => Operation.ofTasks ++ Operation.ofAggregates
  | .stack _ => Operation.ofStacks
  | .layout _ => Operation.ofLayouts
  | .affine _ => Operation.ofAffineMaps
  | .value _ | .nothing => []

/-- The fields of a leaf constraint that only constraints with its rule have. -/
def fieldsOfConstraintRule : ConstraintRule α → List Field
  | .validated | .unvalidated | .computed .. => []
  | .boxAround .. => [.halfWidth, .updates]
  | .rowsAround _ => [.halfWidth]

/-- The fields of a leaf task that only tasks with its rule have. -/
def fieldsOfTaskRule : TaskRule α → List Field
  | .opposing _ => [.updates]
  | .explicit | .onTarget | .computed .. => []

/-- The fields of an object that hold no array as long as none is assigned to them. -/
def plainFields (s : Store α) (owner : Object) : List Field :=
  s.computed owner ++ (backings owner).map .backing ++ (s.operations owner).map .operation ++
    match owner with
    | .constraint (.leaf i) =>
      [.constraintName, .size] ++ fieldsOfConstraintRule (s.leafConstraints.read i).rule
    | .constraint (.merged ..) => [.constraintName, .size, .policy]
    | .task (.leaf i) =>
      [.taskName, .size, .gain, .hessian, .constraints] ++
        fieldsOfTaskRule (s.leafTasks.read i).rule
    | .task (.merged ..) => [.taskName, .size, .gain, .hessian, .constraints]
    | .stack _ => [.size, .policy]
    | _ => []

/-- Why nothing can be noted down for an object, if nothing can. -/
def immutable? (s : Store α) (object : Object) : Option Fault :=
  match object, s.plain? object with
  | .affine _, _ => some .frozen
  | .nothing, _ => some .noMember
  | _, some (.policy _) | _, none => none
  | _, some _ => some .noMember

end Store

end ControlHierarchy
