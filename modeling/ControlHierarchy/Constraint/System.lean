import ControlHierarchy.Tensor.ArrayData

/-!
# Linear systems

A constraint on the decision vector `x` has up to three faces: a box
`l ≤ x ≤ u`, equalities `A x = b`, and inequality rows `l ≤ A x ≤ u` of which
one bound may be missing. A face that does not apply is stored as empty arrays.
The arrays of a `LinearSystem` may have any shape: setters and merges decide
which ones they accept.
-/

namespace ControlHierarchy

/-- The arrays of a constraint. -/
structure LinearSystem (α : Type) where
  boxLower : Tensor α
  boxUpper : Tensor α
  equalityMatrix : Tensor α
  equalityRhs : Tensor α
  rowMatrix : Tensor α
  rowLower : Tensor α
  rowUpper : Tensor α

/-- The arrays of a system by their roles. -/
inductive SystemArray where
  | boxLower
  | boxUpper
  | equalityMatrix
  | equalityRhs
  | rowMatrix
  | rowLower
  | rowUpper
  deriving DecidableEq

namespace LinearSystem

variable {α : Type}

def get (s : LinearSystem α) : SystemArray → Tensor α
  | .boxLower => s.boxLower
  | .boxUpper => s.boxUpper
  | .equalityMatrix => s.equalityMatrix
  | .equalityRhs => s.equalityRhs
  | .rowMatrix => s.rowMatrix
  | .rowLower => s.rowLower
  | .rowUpper => s.rowUpper

def set (s : LinearSystem α) (role : SystemArray) (array : Tensor α) : LinearSystem α :=
  match role with
  | .boxLower => { s with boxLower := array }
  | .boxUpper => { s with boxUpper := array }
  | .equalityMatrix => { s with equalityMatrix := array }
  | .equalityRhs => { s with equalityRhs := array }
  | .rowMatrix => { s with rowMatrix := array }
  | .rowLower => { s with rowLower := array }
  | .rowUpper => { s with rowUpper := array }

/-- The system with some arrays stored in it. -/
def store (s : LinearSystem α) (stored : SystemArray → Option (Tensor α)) : LinearSystem α where
  boxLower := (stored .boxLower).getD s.boxLower
  boxUpper := (stored .boxUpper).getD s.boxUpper
  equalityMatrix := (stored .equalityMatrix).getD s.equalityMatrix
  equalityRhs := (stored .equalityRhs).getD s.equalityRhs
  rowMatrix := (stored .rowMatrix).getD s.rowMatrix
  rowLower := (stored .rowLower).getD s.rowLower
  rowUpper := (stored .rowUpper).getD s.rowUpper

theorem get_set (s : LinearSystem α) (role role' : SystemArray) (array : Tensor α) :
    (s.set role array).get role' = if role' = role then array else s.get role' := by
  cases role <;> cases role' <;> rfl

/-- The system without any face, over a decision vector of a given size. -/
def free (size : Int) : Except Error (LinearSystem α) := do
  let matrix ← RowMatrix.withoutRows size
  return ⟨.vector [], .vector [], .matrix matrix, .vector [], .matrix matrix, .vector [],
    .vector []⟩

def hasBox (s : LinearSystem α) : Bool := s.boxLower.size ≠ 0 || s.boxUpper.size ≠ 0

def hasEqualities (s : LinearSystem α) : Except Error Bool := do
  let rows ← s.equalityMatrix.leading
  return rows ≠ 0 || s.equalityRhs.size ≠ 0

/-- Whether there are inequality rows, or arrays that pass for some. -/
def hasInequalities (s : LinearSystem α) : Except Error Bool := do
  let rows ← s.rowMatrix.leading
  return rows ≠ 0 || s.rowLower.size ≠ 0 || s.rowUpper.size ≠ 0

/-- Replaces the box, if the new one has both sides or none, of the right size. -/
def setBox (s : LinearSystem α) (name : String) (size : Int) (lower upper : Option (ArrayData α)) :
    Except Error (LinearSystem α) := do
  let l ← ArrayData.readVector lower
  let u ← ArrayData.readVector upper
  if l.isEmpty ≠ u.isEmpty then throw (.boxOneSided name)
  if !l.isEmpty && (l.length ≠ size || u.length ≠ size) then
    throw (.boxShape name size [l.length] [u.length])
  return { s with boxLower := .vector l, boxUpper := .vector u }

/-- Replaces the equalities, if there is one right-hand side for each row of the
right width. -/
def setEqualities (s : LinearSystem α) (name : String) (size : Int)
    (matrix rightHandSide : Option (ArrayData α)) : Except Error (LinearSystem α) := do
  let m ← ArrayData.readMatrix size matrix
  let b ← ArrayData.readVector rightHandSide
  if m.width ≠ size || m.height ≠ b.length then
    throw (.equalityShapes name size [m.height, m.width] [b.length])
  return { s with equalityMatrix := .matrix m, equalityRhs := .vector b }

/-- A bound of inequality rows is empty or has one entry for each row. -/
def checkRowBound (name : String) (rows : Nat) (bound : List α) : Except Error Unit :=
  if !bound.isEmpty && bound.length ≠ rows then
    throw (.inequalityBound name rows [bound.length])
  else pure ()

/-- Replaces the inequality rows, if they have the right width and bounds that fit. -/
def setInequalities (s : LinearSystem α) (name : String) (size : Int)
    (matrix lower upper : Option (ArrayData α)) : Except Error (LinearSystem α) := do
  let m ← ArrayData.readMatrix size matrix
  let l ← ArrayData.readVector lower
  let u ← ArrayData.readVector upper
  if m.width ≠ size then throw (.inequalityColumns name size m.width)
  if m.height > 0 && l.isEmpty && u.isEmpty then throw (.inequalityUnbounded name)
  checkRowBound name m.height l
  checkRowBound name m.height u
  return { s with rowMatrix := .matrix m, rowLower := .vector l, rowUpper := .vector u }

end LinearSystem

end ControlHierarchy
