import ControlHierarchy.Tensor.Limits
import ControlHierarchy.Tensor.RowMatrix

/-!
# Arrays of any rank

Constraints and tasks work on vectors and matrices, but a caller may hand them
an array of any shape, and what is refused depends on the shape alone. A
`Tensor` is a scalar, a vector, a matrix, or a block of three or more
dimensions; the first three have the structure that the computations use, and a
block keeps its entries in row-major order.
-/

namespace ControlHierarchy

/-- An array of three or more dimensions. -/
structure Block (α : Type) where
  depth : Nat
  height : Nat
  width : Nat
  /-- The dimensions after the first three. -/
  inner : List Nat
  /-- The entries in row-major order. -/
  entries : List α
  length_entries : entries.length = Index.volume (depth :: height :: width :: inner)

def Block.shape {α : Type} (b : Block α) : List Nat := b.depth :: b.height :: b.width :: b.inner

/-- An array. -/
inductive Tensor (α : Type) where
  | scalar (value : α)
  | vector (entries : List α)
  | matrix (rows : RowMatrix α)
  | block (entries : Block α)

/-- The matrix without rows of a given width; a negative width cannot be had,
nor one that is too large. -/
def RowMatrix.withoutRows {α : Type} (width : Int) : Except Error (RowMatrix α) :=
  if width < 0 || !Index.addressable [0, width.toNat] then .error (.fault .badValue)
  else .ok (RowMatrix.empty width.toNat)

namespace Tensor

variable {α : Type}

def shape : Tensor α → List Nat
  | scalar _ => []
  | vector v => [v.length]
  | matrix m => [m.height, m.width]
  | block b => b.shape

/-- The entries of an array in row-major order. -/
def entries : Tensor α → List α
  | scalar a => [a]
  | vector v => v
  | matrix m => m.entries
  | block b => b.entries

def rank (t : Tensor α) : Nat := t.shape.length

def size (t : Tensor α) : Nat := Index.volume t.shape

def axis (t : Tensor α) (i : Nat) : Except Error Nat :=
  match t.shape[i]? with
  | some d => .ok d
  | none => .error (.fault .badIndex)

/-- The first dimension: the length of a vector, the number of rows of a matrix. -/
def leading (t : Tensor α) : Except Error Nat := t.axis 0

/-- The array of a shape with the given entries, if their number is right. -/
def ofShape? (shape : List Nat) (entries : List α) : Option (Tensor α) :=
  if length : entries.length = Index.volume shape then
    match shape, entries, length with
    | [], [a], _ => some (.scalar a)
    | [], _, _ => none
    | [_], entries, _ => some (.vector entries)
    | [height, width], entries, length =>
      some (.matrix ⟨height, width, entries, by simpa using length⟩)
    | depth :: height :: width :: inner, entries, length =>
      some (.block ⟨depth, height, width, inner, entries, length⟩)
  else none

/-- Applies a function to every entry. -/
def map {β : Type} (f : α → β) : Tensor α → Tensor β
  | scalar a => scalar (f a)
  | vector v => vector (v.map f)
  | matrix m => matrix (m.map f)
  | block b =>
    block ⟨b.depth, b.height, b.width, b.inner, b.entries.map f, by simpa using b.length_entries⟩

/-- The entry at an index tuple; outside of the array it reads as zero. -/
def entry [Zero α] (t : Tensor α) (position : List Nat) : α :=
  t.entries.getD (Index.offset t.shape position) 0

/-- The array of a shape whose entries are given by their index tuples. -/
def generate? (shape : List Nat) (f : List Nat → α) : Option (Tensor α) :=
  ofShape? shape ((Index.positions shape).map f)

@[simp] theorem shape_map {β : Type} (f : α → β) (t : Tensor α) : (t.map f).shape = t.shape := by
  cases t with
  | matrix m => simp [map, shape]
  | _ => simp [map, shape, Block.shape]

end Tensor

end ControlHierarchy
