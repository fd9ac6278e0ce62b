import ControlHierarchy.Tensor.Basic

/-!
# Products and combinations of arrays

The matrix product of two arrays contracts the last dimension of the first with
the last but one of the second (with the only one of a vector); dimensions
before these are matched like the operands of an entrywise combination. Shapes
that do not fit, and scalars, are refused. Vectors and matrices, where all
computations of tasks take place, have their products written out on rows.
-/

namespace ControlHierarchy.Tensor

variable {α : Type}

/-- An array computed entry by entry, or a refusal of its shape. -/
def tabulate (shape : List Nat) (f : List Nat → α) : Except Error (Tensor α) := do
  checkShape shape
  match generate? shape f with
  | some t => return t
  | none => throw (.fault .badValue)

/-- Combines the entries of two arrays of compatible shapes. -/
def combine [Zero α] (f : α → α → α) : Tensor α → Tensor α → Except Error (Tensor α)
  | scalar a, t => .ok (t.map (f a))
  | t, scalar b => .ok (t.map (f · b))
  | vector u, vector v =>
    if u.length = v.length then .ok (vector (List.zipWith f u v))
    else if u.length = 1 then .ok (vector (v.map (f (u.getD 0 0))))
    else if v.length = 1 then .ok (vector (u.map (f · (v.getD 0 0))))
    else .error (.fault .badValue)
  | s, t =>
    match Index.join s.shape t.shape with
    | none => .error (.fault .badValue)
    | some shape =>
      tabulate shape fun i => f (s.entry (Index.align s.shape i)) (t.entry (Index.align t.shape i))

def transpose [Zero α] : Tensor α → Tensor α
  | matrix m => matrix m.transpose
  | block b => ((generate? b.shape.reverse fun i => (block b).entry i.reverse)).getD (block b)
  | t => t

def diagonal [Zero α] : Tensor α → Except Error (Tensor α)
  | vector v => .ok (matrix (RowMatrix.diagonal v))
  | matrix m => .ok (vector m.mainDiagonal)
  | _ => .error (.fault .badValue)

/-- The shape of a factor of a product, split into its outer dimensions, its
rows and its columns. A vector is one row as a left factor and one column as a
right factor. -/
def factorShape? (onLeft : Bool) (shape : List Nat) : Option (List Nat × Nat × Nat) :=
  match shape.reverse with
  | [] => none
  | [d] => some (if onLeft then ([], 1, d) else ([], d, 1))
  | columns :: rows :: outer => some (outer.reverse, rows, columns)

/-- The product of two arrays, one of which is a block: a product of matrices
for each position of the outer dimensions. The dimension that stands for the
single row or column of a vector is left out of the result. -/
def stackedProduct [Zero α] [Add α] [Mul α] (s t : Tensor α) : Except Error (Tensor α) :=
  match factorShape? true s.shape, factorShape? false t.shape with
  | some (outer, rows, inner), some (outer', inner', columns) =>
    match Index.join outer outer' with
    | some shared =>
      if inner = inner' then
        let rowShape := if s.rank = 1 then [] else [rows]
        let columnShape := if t.rank = 1 then [] else [columns]
        tabulate (shared ++ rowShape ++ columnShape) fun position =>
          let place := position.take shared.length
          let last := position.drop shared.length
          let row := if s.rank = 1 then [] else last.take 1
          let column := if t.rank = 1 then [] else last.drop rowShape.length
          let left := fun k => s.entry (Index.align outer place ++ row ++ [k])
          let right := fun k => t.entry (Index.align outer' place ++ [k] ++ column)
          RowMatrix.dot ((List.range inner).map left) ((List.range inner).map right)
      else .error (.fault .badValue)
    | none => .error (.fault .badValue)
  | _, _ => .error (.fault .badValue)

def product [Zero α] [Add α] [Mul α] : Tensor α → Tensor α → Except Error (Tensor α)
  | scalar _, _ | _, scalar _ => .error (.fault .badValue)
  | vector u, vector v =>
    if u.length = v.length then .ok (scalar (RowMatrix.dot u v)) else .error (.fault .badValue)
  | matrix m, vector v =>
    if m.width = v.length then .ok (vector (m.mulVec v)) else .error (.fault .badValue)
  | vector u, matrix m =>
    if u.length = m.height then .ok (vector (RowMatrix.vecMul u m)) else .error (.fault .badValue)
  | matrix m, matrix k =>
    if m.width = k.height then .ok (matrix (m.mul k)) else .error (.fault .badValue)
  | s, t => stackedProduct s t

end ControlHierarchy.Tensor
