import ControlHierarchy.Event
import ControlHierarchy.Task.Merge

/-!
# Leaf tasks and merged tasks

A leaf task has a body and a rule that says what an update does to it. A merged
task keeps apart the constraints that were attached to itself: the constraints
of its body are those of its parts at the last merge, followed by its own.

The rules of the leaf tasks that are known here are written out. A leaf task of
any other kind has an update that is a function of the state.

The array that an update puts into a leaf task may refuse the assignment of
entries. The diagonal of a matrix is a view into the state, which is not to be
changed, and what is computed from a state without dimensions is a bare number.
-/

namespace ControlHierarchy

/-- How a leaf task depends on the state. -/
inductive TaskRule (α : Type) where
  /-- Matrix and reference are set by a validating setter and do not depend on the state. -/
  | explicit
  /-- The reference is minus the state. -/
  | opposing (updates : Nat)
  /-- The reference is fixed, and the matrix is the diagonal one of the state. -/
  | onTarget
  /-- Some arrays are stored that a task of this kind computes from the state. -/
  | computed (kind : String) (update : Tensor α → Except Error (TaskArray → Option (Tensor α)))

/-- A task that is not made of others. -/
structure LeafTask (α : Type) where
  body : TaskBody α
  rule : TaskRule α
  /-- Why no entry can be assigned in the array that updates replace, if none can. -/
  lock : Option Fault

/-- A task that merges others. -/
structure MergedTask (α : Type) where
  body : TaskBody α
  /-- The constraints attached to the task itself. -/
  own : List Object

namespace LeafTask

variable {α : Type}

def explicit [Scalar α] (name : String) (matrix : ArrayData α) (reference : Option (ArrayData α))
    (gain : Option α) : Except Error (LeafTask α) := do
  let m ← matrix.read
  match m.shape with
  | [_, columns] =>
    let body ← TaskBody.blank name columns gain
    return ⟨← body.setArrays (some (.shaped m)) reference, .explicit, none⟩
  | shape => throw (.taskRank name shape)

/-- A task that drives the decision vector towards minus the state. -/
def opposing [Zero α] [One α] [Scalar α] (name : String) (size : Int) (gain : Option α) :
    Except Error (LeafTask α) := do
  let body ← TaskBody.blank name size gain
  checkShape [size.toNat, size.toNat]
  let matrix := RowMatrix.identity size.toNat
  let reference := List.replicate size.toNat 0
  return ⟨{ body with matrix := .matrix matrix, reference := .vector reference }, .opposing 0, none⟩

/-- A task with a fixed reference, whose rows are only known after an update. -/
def onTarget [One α] [Scalar α] (name : String) (target : ArrayData α) :
    Except Error (LeafTask α) := do
  let b ← target.read
  let body ← TaskBody.blank name (← b.leading) (some 1)
  return ⟨{ body with reference := b }, .onTarget, none⟩

def refresh [Zero α] [Neg α] (state : ArrayData α) (t : LeafTask α) : Except Error (LeafTask α) :=
  match t.rule with
  | .explicit => .ok t
  | .opposing updates => do
    let x ← state.read
    let lock := if x.rank = 0 then some .badType else none
    return ⟨{ t.body with reference := x.map (-·) }, .opposing (updates + 1), lock⟩
  | .onTarget => do
    let x ← state.read
    let lock := if x.rank = 2 then some .badValue else none
    return ⟨{ t.body with matrix := ← x.diagonal }, .onTarget, lock⟩
  | .computed _ update => do
    return { t with body := t.body.store (← update (← state.read)) }

def refreshed? (t : LeafTask α) : Option TaskArray :=
  match t.rule with
  | .explicit | .computed .. => none
  | .opposing _ => some .reference
  | .onTarget => some .matrix

/-- Why no entry can be assigned in an array, if none can. -/
def lockOf (role : TaskArray) (t : LeafTask α) : Option Fault :=
  if t.refreshed? = some role then t.lock else none

def setArray (role : TaskArray) (array : Tensor α) (t : LeafTask α) : LeafTask α :=
  { t with
    body := t.body.set role array
    lock := if t.refreshed? = some role then none else t.lock }

end LeafTask

namespace MergedTask

variable {α : Type}

def attach (m : Object) (name : Except Error String) (size : Int) (t : MergedTask α) :
    Except Error (MergedTask α) := do
  return ⟨← t.body.attach m name size, t.own ++ [m]⟩

def checkWeight (rows : Nat) (t : MergedTask α) : Except Error Unit := do
  if let some w := t.body.weight then
    let height ← w.leading
    if height ≠ rows then throw (.mergedWeight t.body.name height rows)

/-- The log lines of a merge: a weight that was not set follows the number of rows. -/
def resizing (rows : Nat) (t : MergedTask α) : Except Error (List Event) :=
  match t.body.weight with
  | some _ => .ok []
  | none => do return if rows ≠ (← t.body.rows) then [.resizingWeight t.body.name rows] else []

/-- Merges the parts as they are now; on failure nothing is replaced. -/
def regenerate [Zero α] [One α] [Add α] [Mul α] (parts : List (TaskBody α)) (t : MergedTask α) :
    Except Error (MergedTask α × List Event) := do
  let merged ← TaskRows.merge t.body.size parts
  let rows ← merged.matrix.leading
  t.checkWeight rows
  let events ← t.resizing rows
  let body := { t.body with
    matrix := merged.matrix
    reference := merged.reference
    constraints := parts.flatMap TaskBody.constraints ++ t.own
    hessian := some .semidefinite }
  return ({ t with body := body }, events)

end MergedTask

end ControlHierarchy
