import ControlHierarchy.Proofs.Store.Addition
import ControlHierarchy.Proofs.Task.Labels
import Mathlib.Tactic.LinearCombination

/-!
# Objectives as residuals

The objective of a task is written down as a Hessian and a linear part; the
residual `A x - gain * b` that it stands for is never computed. Over an exact
ordered field the value of the objective is nevertheless half the weighted
square of the residual, up to a constant (`LeastSquares.value_own`): a symmetric
weight lets the two mixed products of the expansion agree, and each of them has
the gain once. So the objective ranks vectors as the residual does
(`TaskBody.objective_ranks`). Nothing is asked of the number of rows or of
variables, or of the gain and the sign of the weight.
-/

namespace ControlHierarchy

open Matrix

variable {α : Type} {n : ℕ}

/-! ### The value of an objective -/

section Value

variable [CommSemiring α]

/-- The value of a quadratic function, whose Hessian is taken with a factor. -/
def Quadratic.value (factor : α) (f : Quadratic α n) (x : Fin n → α) : α :=
  (factor • x) ᵥ* f.1 ⬝ᵥ x + f.2 ⬝ᵥ x

theorem Tensor.vector_product_ofMatrix {k : ℕ} (u : Fin k → α) (M : Matrix (Fin k) (Fin n) α) :
    (vector (List.ofFn u)).product (.matrix (.ofMatrix M)) =
      .ok (.vector (List.ofFn (u ᵥ* M))) := by
  rw [product, RowMatrix.height_ofMatrix, List.length_ofFn, if_pos rfl, RowMatrix.vecMul_ofMatrix]

theorem Tensor.vector_product_ofFn (u v : Fin n → α) :
    (vector (List.ofFn u)).product (.vector (List.ofFn v)) = .ok (.scalar (u ⬝ᵥ v)) := by
  rw [product, List.length_ofFn, List.length_ofFn, if_pos rfl, RowMatrix.dot_ofFn]

theorem Objective.value_of [Scalar α] (f : Quadratic α n) (x : Fin n → α) :
    (Objective.of f).value (.vector (List.ofFn x)) = .ok (f.value Scalar.half x) := by
  have halved : (Tensor.vector (List.ofFn x)).transpose.map (Scalar.half * ·) =
      .vector (List.ofFn ((Scalar.half : α) • x)) :=
    congrArg Tensor.vector List.map_ofFn
  rw [Objective.value, halved, Objective.of, Tensor.vector_product_ofMatrix, ok_bind,
    Tensor.vector_product_ofFn, ok_bind, Tensor.vector_product_ofFn, ok_bind]
  rfl

end Value

/-! ### The residual -/

namespace LeastSquares

variable [CommRing α]

/-- What is missing from the rows to the scaled target. -/
def residual (q : LeastSquares α n) (x : Fin n → α) : Fin q.height → α :=
  q.rows *ᵥ x - q.gain • q.target

/-- The weighted square of the residual. -/
def cost (q : LeastSquares α n) (x : Fin n → α) : α := q.residual x ⬝ᵥ q.weight *ᵥ q.residual x

/-- The weighted square of the scaled target, which does not depend on the variables. -/
def constant (q : LeastSquares α n) : α := q.gain ^ 2 * (q.target ⬝ᵥ q.weight *ᵥ q.target)

variable {q : LeastSquares α n}

/-- The mixed products of the residual agree when the weight is symmetric. -/
theorem cost_eq (symmetric : q.weightᵀ = q.weight) (x : Fin n → α) :
    q.cost x = (q.rows *ᵥ x) ⬝ᵥ q.weight *ᵥ (q.rows *ᵥ x) -
      2 * q.gain * (q.target ⬝ᵥ q.weight *ᵥ (q.rows *ᵥ x)) + q.constant := by
  have mixed : (q.rows *ᵥ x) ⬝ᵥ q.weight *ᵥ q.target =
      q.target ⬝ᵥ q.weight *ᵥ (q.rows *ᵥ x) := by
    rw [dotProduct_mulVec, ← mulVec_transpose, symmetric, dotProduct_comm]
  rw [cost, residual, constant]
  simp only [mulVec_sub, mulVec_smul, sub_dotProduct, dotProduct_sub, smul_dotProduct,
    dotProduct_smul, smul_eq_mul, mixed]
  ring

theorem hessian_symmetric (symmetric : q.weightᵀ = q.weight) : q.own.1ᵀ = q.own.1 := by
  rw [own, transpose_mul, transpose_mul, transpose_transpose, symmetric, Matrix.mul_assoc]

/-- The linear part has the weighted rows on the side of the variables. -/
theorem own_linear (q : LeastSquares α n) (x : Fin n → α) :
    q.own.2 ⬝ᵥ x = -(q.gain * (q.target ⬝ᵥ q.weight *ᵥ (q.rows *ᵥ x))) := by
  rw [own, neg_dotProduct, smul_dotProduct, mulVec_transpose, ← dotProduct_mulVec, ← mulVec_mulVec,
    smul_eq_mul]

end LeastSquares

variable [CommRing α]

/-- The objective of a least-squares problem is half its cost, without the part
that does not depend on the variables. -/
theorem LeastSquares.value_own {q : LeastSquares α n} {half : α} (twice : 2 * half = 1)
    (symmetric : q.weightᵀ = q.weight) (x : Fin n → α) :
    q.own.value half x = half * q.cost x - half * q.constant := by
  have quadratic : (half • x) ᵥ* q.own.1 ⬝ᵥ x =
      half * ((q.rows *ᵥ x) ⬝ᵥ q.weight *ᵥ (q.rows *ᵥ x)) := by
    rw [← q.own_quadratic, smul_vecMul, smul_dotProduct, ← dotProduct_mulVec, smul_eq_mul]
  rw [Quadratic.value, quadratic, q.own_linear, cost_eq symmetric]
  linear_combination (q.gain * (q.target ⬝ᵥ q.weight *ᵥ (q.rows *ᵥ x))) * twice

variable [LinearOrder α] [IsStrictOrderedRing α]

/-- The objective of a task with a symmetric weight, or with none of its own, is
half the cost of the least-squares problem that the task poses, without the part
that does not depend on the variables. Its Hessian is symmetric, and it ranks
vectors as the cost does. -/
theorem TaskBody.objective_ranks [Scalar α] {t : TaskBody α} {k : ℕ} {g : α}
    (half : 2 * (Scalar.half : α) = 1) (matrix : t.matrix.shape = [k, n])
    (reference : t.reference.shape = [k]) (gain : t.gain = .scalar g)
    (weight : ∀ w, t.weight = some w → w.shape = [k, k] ∧ w.transpose = w) :
    ∃ q : LeastSquares α n, t.Poses q ∧ q.height = k ∧ q.gain = g ∧ q.weightᵀ = q.weight ∧
      ∃ o, t.objective = .ok o ∧ o.hessian.shape = [n, n] ∧ o.linear.shape = [n] ∧
        o.hessian.transpose = o.hessian ∧ ∃ value : (Fin n → α) → α,
        (∀ x, o.value (.vector (List.ofFn x)) = .ok (value x)) ∧
        (∀ x, value x = Scalar.half * q.cost x - Scalar.half * q.constant) ∧
        ∀ x y, value x ≤ value y ↔ q.cost x ≤ q.cost y := by
  obtain ⟨m, given, rfl, width⟩ := Tensor.exists_matrix_of_shape matrix
  obtain ⟨v, target, length⟩ := Tensor.exists_vector_of_shape reference
  obtain ⟨q, poses⟩ := exists_poses given target gain width length fun w set => (weight w set).1
  have symmetric : q.weightᵀ = q.weight := by
    rcases poses.weight with set | ⟨-, unit⟩
    · have same := (weight _ set).2
      rw [Tensor.transpose_ofMatrix] at same
      exact RowMatrix.ofMatrix_injective (Tensor.matrix.inj same)
    · rw [unit, transpose_one]
  have height : q.height = m.height := by
    rw [← RowMatrix.height_ofMatrix q.rows]
    exact congrArg RowMatrix.height (Tensor.matrix.inj (poses.matrix.symm.trans given))
  have positive : 0 < (Scalar.half : α) := by
    linarith [zero_lt_one (α := α)]
  refine ⟨q, poses, height, Tensor.scalar.inj (poses.gain.symm.trans gain), symmetric, .of q.own,
    poses.objective, RowMatrix.shape_ofMatrix q.own.1, ?_, ?_, q.own.value Scalar.half,
    Objective.value_of q.own, q.value_own half symmetric, fun x y => ?_⟩
  · rw [Objective.of, Tensor.shape, List.length_ofFn]
  · rw [Objective.of, Tensor.transpose_ofMatrix, q.hessian_symmetric symmetric]
  · rw [q.value_own half symmetric, q.value_own half symmetric, sub_le_sub_iff_right,
      mul_le_mul_iff_right₀ positive]

/-- A task with two rows, a weight that is not diagonal and a gain. -/
def skewedTask : TaskBody ℚ :=
  ⟨"skewed", 2, .matrix (.ofMatrix !![1, 2; 0, 1]), .vector [1, -1], .scalar (1 / 2),
    some (.matrix (.ofMatrix !![2, 1; 1, 3])), some .unknown, []⟩

/-- Its objective takes half the cost at `[1, 0]`, without the constant, and ranks
`[1, 0]` and `[1, 2]` by their costs. -/
theorem skewedTask_ranks : ∃ q : LeastSquares ℚ 2, skewedTask.Poses q ∧
    ∃ o a b, skewedTask.objective = .ok o ∧ o.hessian.transpose = o.hessian ∧
      o.value (.vector [1, 0]) = .ok a ∧ o.value (.vector [1, 2]) = .ok b ∧
      a = 1 / 2 * q.cost ![1, 0] - 1 / 2 * q.constant ∧
      (a ≤ b ↔ q.cost ![1, 0] ≤ q.cost ![1, 2]) := by
  have weight : ∀ w, skewedTask.weight = some w → w.shape = [2, 2] ∧ w.transpose = w := by
    rintro _ ⟨⟩
    refine ⟨RowMatrix.shape_ofMatrix _, ?_⟩
    rw [Tensor.transpose_ofMatrix]
    exact congrArg (Tensor.matrix ∘ RowMatrix.ofMatrix) (by decide +kernel)
  obtain ⟨q, poses, -, -, -, o, made, -, -, symmetric, value, values, cost, ranks⟩ :=
    TaskBody.objective_ranks (by decide +kernel) (RowMatrix.shape_ofMatrix _) rfl rfl weight
  exact ⟨q, poses, o, value ![1, 0], value ![1, 2], made, symmetric, values ![1, 0],
    values ![1, 2], cost ![1, 0], ranks ![1, 0] ![1, 2]⟩

end ControlHierarchy
