import ControlHierarchy.Problem
import ControlHierarchy.Store.Assembly

/-!
# The program of a task

The quadratic program of a task is that of its objective under the constraints
attached to it, and possibly one more. They are merged under the policy that
keeps equalities apart and bounds rows above only; the merge itself is not
stored.
-/

namespace ControlHierarchy

namespace Build

variable {α : Type} [Zero α] [One α] [Add α] [Mul α] [Neg α] [BoundScalar α]

/-- The quadratic program of a task under its own constraints and possibly one more. -/
def problem (t : TaskRef) (extra : Option Object) : Build α (Problem α) := do
  let s ← get
  let body := s.taskBody t
  let objective ← body.objective
  let constraints := (← s.attached t) ++ extra.toList
  if constraints.isEmpty then Problem.unconstrained objective
  else
    let policy := Literal.integer Policy.plain.word
    let merged ← mergedConstraint (← objectsToMerge constraints policy) body.size policy
    Problem.ofSystem objective merged.system

end Build

end ControlHierarchy
