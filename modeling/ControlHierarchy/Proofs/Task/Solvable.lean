import ControlHierarchy.Proofs.Store.Attaching
import ControlHierarchy.Proofs.Task.Labels

/-!
# Tasks with an objective

A task can be solved for when it has a matrix over its variables, a reference and
a weight with as many rows, and a gain between zero and one
(`TaskBody.Solvable`). Then it has an objective over its variables
(`TaskBody.Solvable.objective`). The setters refuse what would spoil this: each
compares what it is given with the rows that are there, or with the weight, so
that no order of calls gets around them. A merge compares the rows it has piled
with the weight (`MergedTask.solvable_of_regenerate`).
-/

namespace ControlHierarchy

variable {α : Type}

/-- A task over `n` variables whose arrays fit together, with a gain of the unit
interval. -/
structure TaskBody.Solvable [Zero α] [One α] [Scalar α] (n : Nat) (t : TaskBody α) : Prop where
  size : t.size = n
  arrays : ∃ k w, t.matrix.shape = [k, n] ∧ t.reference.shape = [k] ∧
    t.weightInForce = .ok w ∧ w.shape = [k, k]
  gain : ∃ g, t.gain = .scalar g ∧ Scalar.inUnitInterval g

namespace TaskBody

variable [Zero α] [One α]

/-- A weight that was never set has the right shape, whatever the number of rows. -/
theorem weightInForce_of_default {t : TaskBody α} {k n : Nat} (default : t.weight = none)
    (shape : t.matrix.shape = [k, n]) :
    t.weightInForce = .ok (.matrix (.identity k)) := by
  rw [weightInForce, default, rows, Tensor.leading_of_shape shape]
  rfl

variable [Scalar α] {n : Nat} {t u : TaskBody α}

theorem solvable_of_arrays {m : RowMatrix α} {v : List α} (size : t.size = n)
    (matrix : t.matrix = .matrix m) (width : m.width = n) (reference : t.reference = .vector v)
    (length : v.length = m.height)
    (weight : ∀ w, t.weight = some w → w.shape = [m.height, m.height])
    (gain : ∃ g, t.gain = .scalar g ∧ Scalar.inUnitInterval g) : t.Solvable n := by
  have shape : t.matrix.shape = [m.height, n] := by rw [matrix, Tensor.shape, width]
  have vector : t.reference.shape = [m.height] := by rw [reference, Tensor.shape, length]
  cases set : t.weight with
  | none =>
    exact ⟨size, ⟨m.height, _, shape, vector, weightInForce_of_default set shape, rfl⟩, gain⟩
  | some w =>
    refine ⟨size, ⟨m.height, w, shape, vector, ?_, weight w set⟩, gain⟩
    rw [weightInForce, set]

namespace Solvable

/-- A weight that was set is a square matrix. -/
theorem weight (h : t.Solvable n) {w : Tensor α} (set : t.weight = some w) :
    ∃ k, w.shape = [k, k] := by
  obtain ⟨k, _, -, -, force, square⟩ := h.arrays
  rw [weightInForce, set] at force
  cases force
  exact ⟨k, square⟩

theorem weighable (h : t.Solvable n) : t.Weighable :=
  ⟨h.size ▸ Int.natCast_nonneg n, fun _ set => h.weight set⟩

/-! ### Setters -/

theorem setWeight (h : t.Solvable n) {data : ArrayData α} (set : t.setWeight data = .ok u) :
    u.Solvable n := by
  obtain ⟨w, count, width, -, rfl⟩ := setWeight_eq_ok set
  obtain ⟨k, _, matrix, reference, -, -⟩ := h.arrays
  have height : k = w.height := by
    rw [rows, Tensor.leading_of_shape matrix] at count
    exact Except.ok.inj count
  refine ⟨h.size, ⟨k, .matrix w, matrix, reference, rfl, ?_⟩, h.gain⟩
  rw [Tensor.shape, width, height]

theorem resetWeight (h : t.Solvable n) : t.resetWeight.Solvable n := by
  obtain ⟨k, _, matrix, reference, -, -⟩ := h.arrays
  exact ⟨h.size, ⟨k, _, matrix, reference, weightInForce_of_default rfl matrix, rfl⟩, h.gain⟩

theorem setGain (h : t.Solvable n) {gain : Option α} (set : t.setGain gain = .ok u) :
    u.Solvable n := by
  obtain ⟨g, read, set⟩ := bind_eq_ok.1 set
  cases set
  refine ⟨h.size, h.arrays, g, rfl, ?_⟩
  unfold readGain at read
  split at read
  · cases read
  · split at read
    · next unit =>
      cases read
      exact unit
    · cases read

theorem withAttached (h : t.Solvable n) (os : List Object) : (t.withAttached os).Solvable n :=
  ⟨h.size, h.arrays, h.gain⟩

end Solvable

omit [Zero α] [One α] [Scalar α] in
/-- What a setter of arrays accepts: a matrix over the variables with as many rows as
there are references, and as a weight that was set has. -/
theorem setArrays_eq_ok {matrix reference : Option (ArrayData α)}
    (set : t.setArrays matrix reference = .ok u) :
    ∃ m v, (m.width : Int) = t.size ∧ v.length = m.height ∧
      (∀ w, t.weight = some w → w.leading = .ok m.height) ∧
      u = { t with matrix := .matrix m, reference := .vector v } := by
  obtain ⟨m, -, set⟩ := bind_eq_ok.1 set
  obtain ⟨v, -, set⟩ := bind_eq_ok.1 set
  obtain ⟨fits, set⟩ := throw_then.1 set
  simp only [ne_eq, Bool.or_eq_true, decide_eq_true_eq, not_or, not_not] at fits
  obtain ⟨width, length⟩ := fits
  refine ⟨m, v, width, length.symm, ?_, ?_⟩ <;> split at set
  · next w given =>
    obtain ⟨rows, leading, set⟩ := bind_eq_ok.1 set
    obtain ⟨same, -⟩ := throw_then.1 set
    rintro _ set'
    cases given.symm.trans set'
    rw [leading, not_not.1 same]
  · next unset =>
    rintro w set'
    exact absurd set' (unset w)
  · obtain ⟨rows, -, set⟩ := bind_eq_ok.1 set
    exact (pure_eq_ok.1 (throw_then.1 set).2).symm
  · exact (pure_eq_ok.1 set).symm

/-- New arrays are accepted only if they fit a weight that was set. -/
theorem solvable_of_setArrays {matrix reference : Option (ArrayData α)} (size : t.size = n)
    (square : ∀ w, t.weight = some w → ∃ k, w.shape = [k, k])
    (gain : ∃ g, t.gain = .scalar g ∧ Scalar.inUnitInterval g)
    (set : t.setArrays matrix reference = .ok u) : u.Solvable n := by
  obtain ⟨m, v, width, length, rows, rfl⟩ := setArrays_eq_ok set
  refine solvable_of_arrays size rfl (Int.ofNat_inj.1 (width.trans size)) rfl length
    (fun w given => ?_) gain
  obtain ⟨k, shape⟩ := square w given
  cases (Tensor.leading_of_shape shape).symm.trans (rows w given)
  exact shape

/-! ### The objective -/

/-- The objective of a task over `n` variables has a row and a column for each of them. -/
theorem Solvable.objective [Add α] [Mul α] [Neg α] (h : t.Solvable n) :
    ∃ o, t.objective = .ok o ∧ o.hessian.shape = [n, n] ∧ o.linear.shape = [n] := by
  obtain ⟨k, w, matrixShape, referenceShape, force, square⟩ := h.arrays
  obtain ⟨g, gain, -⟩ := h.gain
  obtain ⟨m, matrix, height, width⟩ := Tensor.exists_matrix_of_shape matrixShape
  obtain ⟨v, reference, length⟩ := Tensor.exists_vector_of_shape referenceShape
  obtain ⟨r, rfl, rows, columns⟩ := Tensor.exists_matrix_of_shape square
  have weighted : (Tensor.matrix r).product (.matrix m) = .ok (.matrix (r.mul m)) := by
    rw [Tensor.product_matrix, if_pos (columns.trans height.symm)]
  have hessian : (Tensor.matrix m).transpose.product (.matrix (r.mul m)) =
      .ok (.matrix (m.transpose.mul (r.mul m))) := by
    rw [Tensor.transpose, Tensor.product_matrix, RowMatrix.width_transpose, RowMatrix.height_mul,
      if_pos (height.trans rows.symm)]
  have linear : (Tensor.matrix (r.mul m)).transpose.product (.vector v) =
      .ok (.vector ((r.mul m).transpose.mulVec v)) := by
    rw [Tensor.transpose, Tensor.product_vector, RowMatrix.width_transpose, RowMatrix.height_mul,
      if_pos (rows.trans length.symm)]
  refine ⟨⟨.matrix (m.transpose.mul (r.mul m)),
    .vector (((r.mul m).transpose.mulVec v).map (-g * ·))⟩, ?_, ?_, ?_⟩
  · rw [TaskBody.objective, force, ok_bind, TaskBody.rows, Tensor.leading_of_shape matrixShape,
      ok_bind]
    refine throw_then.2 ⟨not_not.2 square, ?_⟩
    rw [matrix, weighted, ok_bind, hessian, ok_bind, reference, linear, ok_bind, gain]
    rfl
  · rw [Tensor.shape, RowMatrix.height_mul, RowMatrix.height_transpose, RowMatrix.width_mul,
      RowMatrix.width_mul, width]
  · rw [Tensor.shape, List.length_map, RowMatrix.length_mulVec, RowMatrix.height_transpose,
      RowMatrix.width_mul, width]

end TaskBody

/-! ### Making and merging -/

/-- A task that is declared with explicit arrays can be solved for. -/
theorem LeafTask.solvable_of_explicit [Zero α] [One α] [Scalar α] {name : String}
    {matrix : ArrayData α} {reference : Option (ArrayData α)} {gain : Option α} {t : LeafTask α}
    (declared : explicit name matrix reference gain = .ok t) :
    t.rule = .explicit ∧ t.body.constraints = [] ∧ ∃ n, t.body.Solvable n := by
  obtain ⟨m, -, declared⟩ := bind_eq_ok.1 declared
  split at declared
  · next rows columns shape =>
    obtain ⟨body, blank, declared⟩ := bind_eq_ok.1 declared
    obtain ⟨full, set, declared⟩ := bind_eq_ok.1 declared
    cases declared
    cases gain with
    | none =>
      unfold TaskBody.blank at blank
      obtain ⟨-, blank⟩ := throw_then.1 blank
      obtain ⟨_, -, blank⟩ := bind_eq_ok.1 blank
      cases blank
    | some g =>
      obtain ⟨-, unit, k, -, rfl⟩ := TaskBody.blank_eq_ok.1 blank
      refine ⟨rfl, ?_, columns, TaskBody.solvable_of_setArrays rfl (fun w given => ?_)
        ⟨g, rfl, unit⟩ set⟩
      · obtain ⟨_, _, -, -, -, rfl⟩ := TaskBody.setArrays_eq_ok set
        rfl
      · cases given
  · cases declared

namespace MergedTask

variable [Zero α] [One α] [Add α] [Mul α] [Scalar α] {n : Nat} {t d : MergedTask α}
  {parts : List (TaskBody α)} {events : List Event}

/-- A merge of parts with numbers as gains, whatever their arrays, gives a task that can
be solved for, or none. -/
theorem solvable_of_regenerate (solvable : t.body.Solvable n)
    (gains : ∀ p ∈ parts, ∃ g, p.gain = .scalar g) (h : t.regenerate parts = .ok (d, events)) :
    d.body.Solvable n := by
  obtain ⟨m, v, matrix, reference, length, width, weight⟩ :=
    (labelled_of_regenerate solvable.weighable gains h).arrays
  obtain ⟨r, -, rfl⟩ := withRows_of_regenerate h
  exact TaskBody.solvable_of_arrays solvable.size matrix
    (Int.ofNat_inj.1 (width.trans solvable.size)) reference length weight solvable.gain

end MergedTask

end ControlHierarchy
