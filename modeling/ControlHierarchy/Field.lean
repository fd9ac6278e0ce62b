import ControlHierarchy.Constraint.System
import ControlHierarchy.Operation
import ControlHierarchy.Task.Body

/-!
# Fields

A field is a property of an object that can be asked for by its word. Not every
object has every field; a word that no sort of object knows is a field as well,
since anything can be noted down under it. What a layout says about a variable
has no word.

Behind some fields that an object computes there are others, in which it keeps
what it computes them from. The words of these start with a low line. The
operations of an object are among its fields, too.
-/

namespace ControlHierarchy

/-- What an object keeps to compute other fields from. -/
inductive Backing where
  | weight
  /-- The parts of an aggregate of constraints. -/
  | constraints
  /-- The parts of an aggregate of tasks. -/
  | tasks
  | ownConstraints
  | levels
  /-- The bounds of a stack, one by one. -/
  | bounds
  /-- The aggregate of the bounds of a stack. -/
  | mergedBounds
  | offsets
  | sizes
  | names
  | totalSize
  deriving DecidableEq

namespace Backing

/-- What objects keep to themselves, with the words for it. -/
def table : List (String × Backing) := [
  ("_weight", weight),
  ("_constraints", constraints),
  ("_tasks", tasks),
  ("_own_constraints", ownConstraints),
  ("_levels", levels),
  ("_bounds", bounds),
  ("_aggregated_bounds", mergedBounds),
  ("_offsets", offsets),
  ("_sizes", sizes),
  ("_names", names),
  ("_size", totalSize)]

end Backing

/-- The fields of objects. -/
inductive Field where
  | system (role : SystemArray)
  | task (role : TaskArray)
  | mapMatrix
  | mapOffset
  | weight
  | gain
  | hessian
  | halfWidth
  | size
  | policy
  | updates
  | constraintName
  | taskName
  | constraints
  | tasks
  | ownConstraints
  | levels
  | bounds
  | rows
  | defaultWeight
  | bilateral
  | foldsEqualities
  | inputs
  | outputs
  | totalSize
  | names
  | offsetOf (name : String)
  | sizeOf (name : String)
  | backing (kept : Backing)
  | operation (operation : Operation)
  | other (word : String)
  deriving DecidableEq

namespace Field

def table : List (String × Field) := [
  ("lower_bound", system .boxLower),
  ("upper_bound", system .boxUpper),
  ("Aeq", system .equalityMatrix),
  ("beq", system .equalityRhs),
  ("Aineq", system .rowMatrix),
  ("b_lower_bound", system .rowLower),
  ("b_upper_bound", system .rowUpper),
  ("A", task .matrix),
  ("b", task .reference),
  ("M", mapMatrix),
  ("q", mapOffset),
  ("weight", weight),
  ("lambda_", gain),
  ("hessian_type", hessian),
  ("width", halfWidth),
  ("x_size", size),
  ("policy", policy),
  ("num_updates", updates),
  ("constraint_id", constraintName),
  ("task_id", taskName),
  ("constraints", constraints),
  ("tasks", tasks),
  ("own_constraints", ownConstraints),
  ("levels", levels),
  ("bounds", bounds),
  ("rows", rows),
  ("has_default_weight", defaultWeight),
  ("bilateral", bilateral),
  ("equalities_to_inequalities", foldsEqualities),
  ("input_size", inputs),
  ("output_size", outputs),
  ("size", totalSize),
  ("names", names)]

def ofWord (word : String) : Field :=
  match table.lookup word, Backing.table.lookup word, Operation.table.lookup word with
  | some field, _, _ => field
  | none, some kept, _ => backing kept
  | none, none, some op => operation op
  | none, none, none => other word

end Field

end ControlHierarchy
