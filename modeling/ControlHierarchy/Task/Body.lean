import ControlHierarchy.Reference
import ControlHierarchy.Scalar
import ControlHierarchy.Tensor.ArrayData
import ControlHierarchy.Tensor.Product

/-!
# Tasks

A task asks for `A x` close to `gain * b`, measured with a symmetric weight `W`.
As a quadratic objective this is `xᵀ H x / 2 + cᵀ x` with `H = Aᵀ W A` and
`c = - gain * Aᵀ W b`, up to a constant. A weight that was never set is the
identity of the current number of rows.

The gain is a number, and the weight a matrix, when they are set through the
interface of tasks. Assigned directly they may be any arrays; such a gain scales
the linear part of the objective entry by entry, and such a weight is refused by
what computes with it, unless it has the right shape.
-/

namespace ControlHierarchy

/-- What is known about the Hessian of a task. -/
inductive HessianLabel where
  | unknown
  | zero
  | semidefinite
  | definite
  deriving DecidableEq

def HessianLabel.word : HessianLabel → String
  | .unknown => "unknown"
  | .zero => "zero"
  | .semidefinite => "semidefinite"
  | .definite => "definite"

def HessianLabel.ofWord? (word : String) : Option HessianLabel :=
  [unknown, zero, semidefinite, definite].find? fun label => label.word == word

structure TaskBody (α : Type) where
  name : String
  size : Int
  matrix : Tensor α
  reference : Tensor α
  gain : Tensor α
  /-- The weight, if one was set. -/
  weight : Option (Tensor α)
  /-- What is known about the Hessian, unless something else was assigned in its place. -/
  hessian : Option HessianLabel
  /-- The constraints that come with the task. -/
  constraints : List Object

/-- The arrays of a task by their roles. -/
inductive TaskArray where
  | matrix
  | reference
  deriving DecidableEq

/-- The quadratic objective of a task. -/
structure Objective (α : Type) where
  hessian : Tensor α
  linear : Tensor α

namespace TaskBody

variable {α : Type}

/-- A gain is a number of the unit interval; `none` stands for something that is
no number. -/
def readGain [Scalar α] : Option α → Except Error α
  | none => .error (.fault .badType)
  | some gain => if Scalar.inUnitInterval gain then .ok gain else .error .gainOutOfRange

/-- A task without rows; a negative size is refused, then a gain that is none. -/
def blank [Scalar α] (name : String) (size : Int) (gain : Option α) :
    Except Error (TaskBody α) := do
  if size < 0 then throw (.negativeSize name size)
  let matrix ← RowMatrix.withoutRows size
  let gain ← readGain gain
  return ⟨name, size, .matrix matrix, .vector [], .scalar gain, none, some .unknown, []⟩

def rows (t : TaskBody α) : Except Error Nat := t.matrix.leading

def weightInForce [Zero α] [One α] (t : TaskBody α) : Except Error (Tensor α) :=
  match t.weight with
  | some w => .ok w
  | none => do return .matrix (RowMatrix.identity (← t.rows))

def setGain [Scalar α] (gain : Option α) (t : TaskBody α) : Except Error (TaskBody α) := do
  return { t with gain := .scalar (← readGain gain) }

def get (t : TaskBody α) : TaskArray → Tensor α
  | .matrix => t.matrix
  | .reference => t.reference

def set (t : TaskBody α) (role : TaskArray) (array : Tensor α) : TaskBody α :=
  match role with
  | .matrix => { t with matrix := array }
  | .reference => { t with reference := array }

/-- The task with some arrays stored in it. -/
def store (t : TaskBody α) (stored : TaskArray → Option (Tensor α)) : TaskBody α :=
  { t with
    matrix := (stored .matrix).getD t.matrix
    reference := (stored .reference).getD t.reference }

def isSymmetric [Zero α] [Scalar α] (w : RowMatrix α) : Bool :=
  (w.entries.zip w.transpose.entries).all fun p => Scalar.close p.1 p.2

/-- Sets the weight: a symmetric matrix, or the vector on its diagonal. -/
def setWeight [Zero α] [Scalar α] (data : ArrayData α) (t : TaskBody α) :
    Except Error (TaskBody α) := do
  let w ← data.read
  let w ← if w.rank = 1 then w.diagonal else pure w
  let rows ← t.rows
  match w with
  | .matrix m =>
    if m.height ≠ rows || m.width ≠ rows then throw (.weightShape t.name rows w.shape)
    if !isSymmetric m then throw (.weightAsymmetric t.name)
    return { t with weight := some w }
  | w => throw (.weightShape t.name rows w.shape)

def resetWeight (t : TaskBody α) : TaskBody α := { t with weight := none }

/-- Replaces matrix and reference, if they fit together, the size, and a weight
that was set. -/
def setArrays (matrix reference : Option (ArrayData α)) (t : TaskBody α) :
    Except Error (TaskBody α) := do
  let m ← ArrayData.readMatrix t.size matrix
  let b ← ArrayData.readVector reference
  if m.width ≠ t.size || m.height ≠ b.length then
    throw (.taskShapes t.name t.size [m.height, m.width] [b.length])
  if let some w := t.weight then
    if (← w.leading) ≠ m.height then throw (.weightOutgrown t.name w.shape m.height)
  return { t with matrix := .matrix m, reference := .vector b }

/-- Attaches an object of the same size; its name is asked for when the sizes differ. -/
def attach (m : Object) (name : Except Error String) (size : Int) (t : TaskBody α) :
    Except Error (TaskBody α) := do
  if size ≠ t.size then throw (.sizeMismatch t.name t.size (← name) size)
  return { t with constraints := t.constraints ++ [m] }

def objective [Zero α] [One α] [Add α] [Mul α] [Neg α] (t : TaskBody α) :
    Except Error (Objective α) := do
  let w ← t.weightInForce
  let rows ← t.rows
  if w.shape ≠ [rows, rows] then throw (.objectiveWeight t.name w.shape rows)
  let weighted ← w.product t.matrix
  let hessian ← t.matrix.transpose.product weighted
  let linear ← weighted.transpose.product t.reference
  return ⟨hessian, ← Tensor.combine (· * ·) (t.gain.map (-·)) linear⟩

end TaskBody

/-- The value of an objective: the quadratic part is taken as `((x / 2)ᵀ H) x`.
It has to be a number, and an array with a single entry is none. -/
def Objective.value {α : Type} [Zero α] [Add α] [Mul α] [Scalar α] (o : Objective α)
    (x : Tensor α) : Except Error α := do
  let left ← (x.transpose.map (Scalar.half * ·)).product o.hessian
  let quadratic ← left.product x
  let linear ← o.linear.product x
  let sum ← Tensor.combine (· + ·) quadratic linear
  match sum with
  | .scalar value => return value
  | _ => throw (.fault .badType)

end ControlHierarchy
