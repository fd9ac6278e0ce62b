import ControlHierarchy.Task.Body
import ControlHierarchy.VariableLayout

/-!
# Room for what is computed

Some results are much larger than what they are computed from: the identity weight
and the Hessian of a task, the matrix that selects a variable, a product of factors
without entries. The functions that compute them know arrays of any size. Whether
there is room is checked before them, and all these checks are here, each with the
function that it stands in front of.
-/

namespace ControlHierarchy

variable {α : Type}

namespace Tensor

/-- The shape of a product, if the factors fit together. -/
def productShape? (shape shape' : List Nat) : Option (List Nat) :=
  match factorShape? true shape, factorShape? false shape' with
  | some (outer, rows, inner), some (outer', inner', columns) =>
    if inner = inner' then
      (Index.join outer outer').map fun shared =>
        shared ++ (if shape.length = 1 then [] else [rows]) ++
          (if shape'.length = 1 then [] else [columns])
    else none
  | _, _ => none

/-- There has to be room for a product, if there is one: also factors without
entries can have a large product. -/
def checkProduct (shape shape' : List Nat) : Except Error Unit :=
  (productShape? shape shape').elim (.ok ()) checkShape

def productInRoom [Zero α] [Add α] [Mul α] (left right : Tensor α) : Except Error (Tensor α) := do
  checkProduct left.shape right.shape
  left.product right

end Tensor

namespace TaskBody

/-- A weight that was never set needs room for an identity matrix. -/
def checkRoom (t : TaskBody α) : Except Error Unit :=
  match t.weight, t.matrix.shape with
  | none, rows :: _ => checkShape [rows, rows]
  | _, _ => .ok ()

/-- An objective needs room for the weight, and for a row and a column for each
column of the task. -/
def checkObjective (t : TaskBody α) : Except Error Unit := do
  t.checkRoom
  match t.matrix.shape with
  | [_, width] => checkShape [width, width]
  | _ => return

def objectiveInRoom [Zero α] [One α] [Add α] [Mul α] [Neg α] (t : TaskBody α) :
    Except Error (Objective α) := do
  t.checkObjective
  t.objective

end TaskBody

namespace Objective

/-- An array with several dimensions takes the place of a point only after there was
room for all products with it. -/
def checkPoint (o : Objective α) (x : Tensor α) : Except Error Unit := do
  if let some left := Tensor.productShape? x.shape.reverse o.hessian.shape then
    checkShape left
    Tensor.checkProduct left x.shape
  Tensor.checkProduct o.linear.shape x.shape

def valueInRoom [Zero α] [Add α] [Mul α] [Scalar α] (o : Objective α) (x : Tensor α) :
    Except Error α := do
  o.checkPoint x
  o.value x

end Objective

namespace AffineMap

/-- A matrix needs room for its product with the coefficients. -/
def checkFactor (factor : Tensor α) (e : AffineMap α) : Except Error Unit := do
  if let [rows, columns] := factor.shape then
    Tensor.checkProduct [rows, columns] [e.outputs, e.inputs]

def multiplyInRoom [Zero α] [Add α] [Mul α] (factor : Tensor α) (e : AffineMap α) :
    Except Error (AffineMap α) := do
  e.checkFactor factor
  e.multiply factor

def valueInRoom [Zero α] [Add α] [Mul α] (e : AffineMap α) (x : Tensor α) :
    Except Error (Tensor α) := do
  Tensor.checkProduct [e.outputs, e.inputs] x.shape
  e.value x

end AffineMap

namespace VariableLayout

/-- A variable that is there needs room for the matrix that selects it. -/
def checkSelection (l : VariableLayout) (name : String) : Except Error Unit := do
  checkShape [← l.variableSize name, l.size]

def selectInRoom [Zero α] [One α] (l : VariableLayout) (name : String) :
    Except Error (AffineMap α) := do
  l.checkSelection name
  l.select name

end VariableLayout

end ControlHierarchy
