import ControlHierarchy.Constraint.System
import ControlHierarchy.Sidedness
import ControlHierarchy.Task.Body

/-!
# Quadratic programs

A task and its constraints become one quadratic program: minimize
`xᵀ P x / 2 + qᵀ x` subject to `G x ≤ h`, `A x = b` and `l ≤ x ≤ u`. It is read
off the merged system of the constraints, whose rows are one-sided and kept
apart from equalities. Rows whose right-hand side restricts nothing are left
out, and a part of the program that has nothing to say is absent.
-/

namespace ControlHierarchy

/-- A quadratic program. -/
structure Problem (α : Type) where
  objective : Objective α
  inequalities : Option (UnilateralRows α)
  equalities : Option (Tensor α × Tensor α)
  box : Option (Tensor α × Tensor α)

namespace Problem

variable {α : Type}

/-- The rows whose upper bound restricts them, in order; none if there are no such rows. -/
def restrictingRows [BoundScalar α] (rows : UnilateralRows α) : Option (UnilateralRows α) :=
  match rows with
  | ⟨.matrix m, .vector h⟩ =>
    if h.any BoundScalar.restricts then
      some ⟨.matrix (m.keepRows h BoundScalar.restricts), .vector (h.filter BoundScalar.restricts)⟩
    else none
  | rows => some rows

/-- The linear part of an objective as a vector. A matrix of one row or one
column is read as one. -/
def withLinearVector (o : Objective α) : Except Error (Objective α) :=
  match o.linear with
  | .scalar _ | .vector _ => .ok o
  | .matrix m =>
    if m.height = 1 || m.width = 1 then .ok { o with linear := .vector m.entries }
      else .error (.fault .badProgram)
  | .block _ => .error (.fault .badProgram)

def unconstrained (objective : Objective α) : Except Error (Problem α) := do
  return ⟨← withLinearVector objective, none, none, none⟩

def ofSystem [BoundScalar α] (objective : Objective α) (s : LinearSystem α) :
    Except Error (Problem α) := do
  let rows ← s.rowMatrix.leading
  let equations ← s.equalityMatrix.leading
  return {
    objective := ← withLinearVector objective
    inequalities := if rows > 0 then restrictingRows ⟨s.rowMatrix, s.rowUpper⟩ else none
    equalities := if equations > 0 then some (s.equalityMatrix, s.equalityRhs) else none
    box := if s.hasBox then some (s.boxLower, s.boxUpper) else none }

end Problem

end ControlHierarchy
