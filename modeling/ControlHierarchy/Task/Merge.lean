import ControlHierarchy.Task.Body
import ControlHierarchy.Tensor.Pile

/-!
# Merging tasks

A merged task piles the weighted rows `W A` and the weighted references
`gain * W b` of its parts, so that it has itself a unit gain and, unless one is
set, an identity weight. A weight that was set on the merged task stays, and
then the number of rows may not change.
-/

namespace ControlHierarchy

/-- The weighted rows of a task. -/
structure TaskRows (α : Type) where
  matrix : Tensor α
  reference : Tensor α

namespace TaskRows

variable {α : Type}

def pileTask [Zero α] [One α] [Add α] [Mul α] (r : TaskRows α) (t : TaskBody α) :
    Except Error (TaskRows α) := do
  let w ← t.weightInForce
  let rows ← t.rows
  if w.shape ≠ [rows, rows] then throw (.partWeight t.name w.shape rows)
  let matrix ← r.matrix.pile (← w.product t.matrix)
  let weighted ← w.product t.reference
  let reference ← r.reference.pile (← Tensor.combine (· * ·) t.gain weighted)
  return ⟨matrix, reference⟩

def merge [Zero α] [One α] [Add α] [Mul α] (size : Int) (parts : List (TaskBody α)) :
    Except Error (TaskRows α) := do
  parts.foldlM pileTask ⟨.matrix (← RowMatrix.withoutRows size), .vector []⟩

end TaskRows

end ControlHierarchy
