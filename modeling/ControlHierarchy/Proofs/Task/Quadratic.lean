import ControlHierarchy.Proofs.Task.Merging
import ControlHierarchy.Proofs.Tensor.Matrices

/-!
# Tasks as least squares

A task whose arrays fit together is a weighted least-squares problem
(`TaskBody.Poses`), and its objective is the quadratic function with Hessian
`Aᵀ W A` and linear part `- gain * (W A)ᵀ b` (`TaskBody.Poses.objective`). A
merge takes the rows `W A` and the references `gain * W b`, whose own objective
has the weight twice (`TaskBody.Poses.brings`). Rows above other rows have the
sum of their objectives (`TaskRows.Amounts.above`), so that a merge of tasks has
the sum of what they bring (`TaskRows.merge_cons_amounts`).
-/

namespace ControlHierarchy

open Matrix

variable {α : Type} {n : ℕ}

/-- A least-squares problem over `n` variables: `rows * x` is to be close to
`gain * target`, measured with a weight. -/
structure LeastSquares (α : Type) (n : ℕ) where
  height : ℕ
  rows : Matrix (Fin height) (Fin n) α
  target : Fin height → α
  weight : Matrix (Fin height) (Fin height) α
  gain : α

/-- The Hessian and the linear part of a quadratic function of `n` variables. -/
abbrev Quadratic (α : Type) (n : ℕ) := Matrix (Fin n) (Fin n) α × (Fin n → α)

/-- A quadratic function, written down as an objective. -/
def Objective.of (f : Quadratic α n) : Objective α :=
  ⟨.matrix (.ofMatrix f.1), .vector (List.ofFn f.2)⟩

/-- The arrays of a task are those of a least-squares problem. A weight that was
never set is the unit matrix. -/
structure TaskBody.Poses [Zero α] [One α] (t : TaskBody α) (q : LeastSquares α n) : Prop where
  matrix : t.matrix = .matrix (.ofMatrix q.rows)
  reference : t.reference = .vector (List.ofFn q.target)
  weight : t.weight = some (.matrix (.ofMatrix q.weight)) ∨ t.weight = none ∧ q.weight = 1
  gain : t.gain = .scalar q.gain

/-- Every task whose arrays fit together poses a least-squares problem. -/
theorem TaskBody.exists_poses [Zero α] [One α] {t : TaskBody α} {m : RowMatrix α} {v : List α}
    {g : α} (matrix : t.matrix = .matrix m) (reference : t.reference = .vector v)
    (gain : t.gain = .scalar g) (width : m.width = n) (length : v.length = m.height)
    (weight : ∀ w, t.weight = some w → w.shape = [m.height, m.height]) :
    ∃ q : LeastSquares α n, t.Poses q := by
  obtain ⟨M, rows⟩ := RowMatrix.exists_ofMatrix rfl width
  obtain ⟨u, target⟩ := exists_ofFn length
  rw [rows] at matrix
  rw [target] at reference
  cases given : t.weight with
  | none => exact ⟨⟨m.height, M, u, 1, g⟩, matrix, reference, .inr ⟨given, rfl⟩, gain⟩
  | some w =>
    obtain ⟨r, rfl, height, width⟩ := Tensor.exists_matrix_of_shape (weight w given)
    obtain ⟨W, square⟩ := RowMatrix.exists_ofMatrix height width
    rw [square] at given
    exact ⟨⟨m.height, M, u, W, g⟩, matrix, reference, .inl given, gain⟩

namespace TaskBody.Poses

variable {t : TaskBody α} {q : LeastSquares α n}

theorem rows_eq_ok [Zero α] [One α] (h : t.Poses q) : t.rows = .ok q.height := by
  rw [TaskBody.rows, h.matrix, Tensor.leading_matrix, RowMatrix.height_ofMatrix]

variable [Semiring α]

theorem weightInForce_eq_ok (h : t.Poses q) :
    t.weightInForce = .ok (.matrix (.ofMatrix q.weight)) := by
  rcases h.weight with given | ⟨given, unit⟩
  · rw [weightInForce, given]
  · rw [weightInForce, given, h.rows_eq_ok, unit, ← RowMatrix.identity_eq_ofMatrix]
    rfl

end TaskBody.Poses

namespace LeastSquares

/-- The objective of a least-squares problem, up to a constant. -/
def own [Ring α] (q : LeastSquares α n) : Quadratic α n :=
  (q.rowsᵀ * q.weight * q.rows, -(q.gain • ((q.weight * q.rows)ᵀ *ᵥ q.target)))

/-- The objective of the weighted rows and references, which has the weight twice. -/
def squared [Ring α] (q : LeastSquares α n) : Quadratic α n :=
  (q.rowsᵀ * q.weightᵀ * q.weight * q.rows,
    -(q.gain • ((q.rowsᵀ * q.weightᵀ * q.weight) *ᵥ q.target)))

/-- With a unit weight it does not matter how often the weight is taken. -/
theorem squared_eq_own [Ring α] {q : LeastSquares α n} (unit : q.weight = 1) :
    q.squared = q.own := by
  rw [squared, own, unit]
  simp

end LeastSquares

theorem TaskBody.Poses.objective [Ring α] {t : TaskBody α} {q : LeastSquares α n}
    (h : t.Poses q) : t.objective = .ok (.of q.own) := by
  have square : ¬(Tensor.matrix (.ofMatrix q.weight)).shape ≠ [q.height, q.height] :=
    not_not.2 (RowMatrix.shape_ofMatrix q.weight)
  have negated : t.gain.map (-·) = .scalar (-q.gain) := by rw [h.gain]; rfl
  rw [TaskBody.objective, h.weightInForce_eq_ok, ok_bind, h.rows_eq_ok, ok_bind]
  refine throw_then.2 ⟨square, ?_⟩
  rw [h.matrix, Tensor.product_ofMatrix, ok_bind, Tensor.transpose_ofMatrix,
    Tensor.product_ofMatrix, ok_bind, Tensor.transpose_ofMatrix, h.reference,
    Tensor.product_ofFn, ok_bind, negated, Tensor.combine_scalar_ofFn, neg_smul, ← Matrix.mul_assoc]
  rfl

/-- Rows and references whose objective, with a unit weight and a unit gain, is a
given one. -/
def TaskRows.Amounts [Ring α] (r : TaskRows α) (f : Quadratic α n) : Prop :=
  ∃ k, ∃ M : Matrix (Fin k) (Fin n) α, ∃ v : Fin k → α,
    r = ⟨.matrix (.ofMatrix M), .vector (List.ofFn v)⟩ ∧ f = (Mᵀ * M, -(Mᵀ *ᵥ v))

/-- What a task brings into a merge has a given objective. -/
def TaskBody.Brings [Ring α] (t : TaskBody α) (f : Quadratic α n) : Prop :=
  ∃ r, t.weighted = .ok r ∧ r.Amounts f

/-- A task brings its weight twice, and its gain once. -/
theorem TaskBody.Poses.brings [CommRing α] {t : TaskBody α} {q : LeastSquares α n}
    (h : t.Poses q) : t.Brings q.squared := by
  have square : ¬(Tensor.matrix (.ofMatrix q.weight)).shape ≠ [q.height, q.height] :=
    not_not.2 (RowMatrix.shape_ofMatrix q.weight)
  refine ⟨⟨.matrix (.ofMatrix (q.weight * q.rows)),
    .vector (List.ofFn (q.gain • (q.weight *ᵥ q.target)))⟩, ?_, _, _, _, rfl, ?_⟩
  · rw [TaskBody.weighted, h.weightInForce_eq_ok, ok_bind, h.rows_eq_ok, ok_bind]
    refine throw_then.2 ⟨square, ?_⟩
    rw [h.matrix, Tensor.product_ofMatrix, ok_bind, h.reference, Tensor.product_ofFn, ok_bind,
      h.gain, Tensor.combine_scalar_ofFn]
    rfl
  · rw [LeastSquares.squared, transpose_mul, mulVec_smul, mulVec_mulVec, ← Matrix.mul_assoc]

namespace TaskRows

variable [Ring α] {p r : TaskRows α} {f g : Quadratic α n}

theorem Amounts.above (hp : p.Amounts f) (hr : r.Amounts g) :
    ∃ s, p.above r = .ok s ∧ s.Amounts (f + g) := by
  obtain ⟨k, M, u, rfl, rfl⟩ := hp
  obtain ⟨l, N, v, rfl, rfl⟩ := hr
  have width : (RowMatrix.ofMatrix M).width = (RowMatrix.ofMatrix N).width := rfl
  refine ⟨_, above_eq_ok.2 ⟨.ofMatrix N, List.ofFn v, width, rfl, rfl⟩, k + l, piled M N,
    Fin.append u v, ?_, ?_⟩
  · rw [RowMatrix.append_ofMatrix, List.ofFn_fin_append]
  · rw [gram_piled, transpose_piled_mulVec, neg_add, Prod.mk_add_mk]

/-- The objective of a task that has given rows, a unit weight and a unit gain. -/
theorem Amounts.objective (h : r.Amounts f) {t : TaskBody α} (matrix : t.matrix = r.matrix)
    (reference : t.reference = r.reference) (weight : t.weight = none)
    (gain : t.gain = .scalar 1) : t.objective = .ok (.of f) := by
  obtain ⟨k, M, v, rfl, rfl⟩ := h
  have poses : t.Poses (⟨k, M, v, 1, 1⟩ : LeastSquares α n) :=
    ⟨matrix, reference, .inr ⟨weight, rfl⟩, gain⟩
  rw [poses.objective, LeastSquares.own]
  simp

/-- Such a task, as a part, brings the rows as they are. -/
theorem Amounts.brings (h : r.Amounts f) {t : TaskBody α} (matrix : t.matrix = r.matrix)
    (reference : t.reference = r.reference) (weight : t.weight = none)
    (gain : t.gain = .scalar 1) : t.Brings f := by
  obtain ⟨k, M, v, rfl, same⟩ := h
  refine ⟨_, TaskBody.weighted_eq_ok weight gain matrix reference (by simp), k, M, v, ?_, same⟩
  simp [Function.comp_def]

theorem merge_nil_amounts {k : RowMatrix α} (room : RowMatrix.withoutRows n = .ok k) :
    ∃ r, merge n ([] : List (TaskBody α)) = .ok r ∧ r.Amounts (0 : Quadratic α n) := by
  refine ⟨⟨.matrix k, .vector []⟩, by rw [merge, room]; rfl, 0, .of Fin.elim0, Fin.elim0, ?_, ?_⟩
  · rw [withoutRows_eq_ok room]
    rfl
  · refine Prod.ext (Matrix.ext fun i j => ?_) (funext fun i => ?_)
    · simp [mul_apply]
    · simp only [Prod.snd_zero, Pi.zero_apply, Pi.neg_apply, mulVec, dotProduct,
        Finset.univ_eq_empty, Finset.sum_empty, neg_zero]

/-- Parts after another one add to what it brings. -/
theorem merge_cons_amounts {k : RowMatrix α} (room : RowMatrix.withoutRows n = .ok k)
    {t : TaskBody α} {ts : List (TaskBody α)} (first : t.Brings f)
    (rest : ∃ r, merge n ts = .ok r ∧ r.Amounts g) :
    ∃ r, merge n (t :: ts) = .ok r ∧ r.Amounts (f + g) := by
  obtain ⟨p, brought, top⟩ := first
  obtain ⟨r, merged, bottom⟩ := rest
  obtain ⟨s, piled, sum⟩ := top.above bottom
  obtain ⟨k, M, v, rfl, -⟩ := top
  have alone : merge n [t] = .ok ⟨.matrix (.ofMatrix M), .vector (List.ofFn v)⟩ :=
    merge_of_weighted room (RowMatrix.width_ofMatrix M) brought
  exact ⟨s, merge_append_eq_ok.2 ⟨_, r, alone, merged, piled⟩, sum⟩

end TaskRows

end ControlHierarchy
