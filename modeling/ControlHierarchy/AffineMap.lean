import ControlHierarchy.Tensor.ArrayData
import ControlHierarchy.Tensor.Pile
import ControlHierarchy.Tensor.Product

/-!
# Affine maps of the decision vector

An affine map `x ↦ M x + q` has as many offsets as rows. Maps of one shape can
be added and subtracted, any map can be negated, scaled and multiplied by a
matrix from the left, and two maps of the same input can be piled.
-/

namespace ControlHierarchy

structure AffineMap (α : Type) where
  matrix : RowMatrix α
  offset : List α
  length_offset : offset.length = matrix.height

namespace AffineMap

variable {α : Type}

def inputs (e : AffineMap α) : Nat := e.matrix.width

def outputs (e : AffineMap α) : Nat := e.matrix.height

/-- The map of a matrix and an offset that fit together. -/
def ofTensors : Tensor α → Tensor α → Except Error (AffineMap α)
  | .matrix m, .vector q =>
    if length : q.length = m.height then
      .ok ⟨m, q, length⟩
    else .error (.affineShapes [m.height, m.width] [q.length])
  | m, q => .error (.affineShapes m.shape q.shape)

def linear [Zero α] (matrix : RowMatrix α) : AffineMap α :=
  ⟨matrix, List.replicate matrix.height 0, List.length_replicate⟩

def zero [Zero α] (outputs inputs : Nat) : AffineMap α := linear (RowMatrix.zero outputs inputs)

/-- The map that sends everything to zero; negative dimensions are refused, and
dimensions that are too large. -/
def zero? [Zero α] (outputs inputs : Int) : Except Error (AffineMap α) := do
  if outputs < 0 || inputs < 0 then throw (.fault .badValue)
  checkShape [outputs.toNat, inputs.toNat]
  checkShape [outputs.toNat]
  return zero outputs.toNat inputs.toNat

/-- The value at an input. An input with several dimensions is multiplied from
the left, and the offsets are added along the last dimension of the product. -/
def value [Zero α] [Add α] [Mul α] (e : AffineMap α) (x : Tensor α) : Except Error (Tensor α) := do
  let product ← (Tensor.matrix e.matrix).product x
  Tensor.combine (· + ·) product (.vector e.offset)

/-- The outputs of one map followed by those of another. -/
def pile (e f : AffineMap α) : Except Error (AffineMap α) :=
  if width : e.matrix.width = f.matrix.width then
    .ok ⟨e.matrix.append f.matrix width,
      e.offset ++ f.offset, by simp [e.length_offset, f.length_offset]⟩
  else .error (.pileColumns e.matrix.width f.matrix.width)

def zipWith (f : α → α → α) (e g : AffineMap α) : Except Error (AffineMap α) :=
  if same : e.matrix.height = g.matrix.height ∧ e.matrix.width = g.matrix.width then
    .ok ⟨e.matrix.zipWith f g.matrix same.2, List.zipWith f e.offset g.offset, by
      rw [List.length_zipWith, RowMatrix.height_zipWith, e.length_offset, g.length_offset]⟩
  else
    .error (.affineShapesDiffer [e.matrix.height, e.matrix.width] [g.matrix.height, g.matrix.width])

def add [Add α] (e g : AffineMap α) : Except Error (AffineMap α) := zipWith (· + ·) e g

def sub [Sub α] (e g : AffineMap α) : Except Error (AffineMap α) := zipWith (· - ·) e g

def map (f : α → α) (e : AffineMap α) : AffineMap α :=
  ⟨e.matrix.map f, e.offset.map f, by simp [e.length_offset]⟩

def neg [Neg α] (e : AffineMap α) : AffineMap α := e.map (-·)

def scale [Mul α] (factor : α) (e : AffineMap α) : AffineMap α := e.map (factor * ·)

def multiply [Zero α] [Add α] [Mul α] (factor : Tensor α) (e : AffineMap α) :
    Except Error (AffineMap α) :=
  match factor with
  | .matrix m =>
    if m.width = e.outputs then
      .ok ⟨m.mul e.matrix, m.mulVec e.offset, by simp⟩
    else .error (.affineFactor [m.height, m.width] e.outputs)
  | t => .error (.affineFactor t.shape e.outputs)

end AffineMap

end ControlHierarchy
