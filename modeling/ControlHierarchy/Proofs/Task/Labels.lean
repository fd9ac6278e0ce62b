import ControlHierarchy.Proofs.Task.Nesting
import ControlHierarchy.Proofs.Task.Quadratic
import Mathlib.Algebra.Order.BigOperators.Ring.Finset

/-!
# Labels of merged tasks

A merge labels the Hessian of a task as positive semidefinite, whatever weight
was set on the task. The quadratic form of the Hessian is that of the weight on
what the rows can reach (`LeastSquares.own_quadratic`). So the label is right
just when the weight is nonnegative there; it is right for every task without a
weight of its own, and for every weight that is positive semidefinite itself
(`TaskBody.Labelled.semidefinite_iff`). A weight that is set has to be symmetric, which
it may be without being semidefinite.
-/

namespace ControlHierarchy

open Matrix

variable {α : Type} {n : ℕ}

/-- A task with the label of a merge and with arrays that fit together. -/
structure TaskBody.Labelled (t : TaskBody α) : Prop where
  label : t.hessian = some .semidefinite
  arrays : ∃ m v, t.matrix = .matrix m ∧ t.reference = .vector v ∧ v.length = m.height ∧
    m.width = t.size ∧ ∀ w, t.weight = some w → w.shape = [m.height, m.height]

/-- A task whose weight, if one was set, is a square matrix. -/
structure TaskBody.Weighable (t : TaskBody α) : Prop where
  natural : 0 ≤ t.size
  square : ∀ w, t.weight = some w → ∃ k, w.shape = [k, k]

theorem TaskBody.Labelled.weighable {t : TaskBody α} (h : t.Labelled) : t.Weighable := by
  obtain ⟨m, v, -, -, -, width, weight⟩ := h.arrays
  exact ⟨width ▸ Int.natCast_nonneg _, fun w set => ⟨_, weight w set⟩⟩

/-- A merge of parts with numbers as gains labels the task, and lets it have new
arrays only if they fit the weight that was set. -/
theorem MergedTask.labelled_of_regenerate [Zero α] [One α] [Add α] [Mul α] {t d : MergedTask α}
    {parts : List (TaskBody α)} {events : List Event} (weighable : t.body.Weighable)
    (gains : ∀ p ∈ parts, ∃ g, p.gain = .scalar g) (h : t.regenerate parts = .ok (d, events)) :
    d.body.Labelled := by
  obtain ⟨r, merged, h⟩ := bind_eq_ok.1 h
  obtain ⟨rows, leading, h⟩ := bind_eq_ok.1 h
  obtain ⟨fits, h⟩ := then_eq_ok.1 h
  obtain ⟨_, -, h⟩ := bind_eq_ok.1 h
  cases h
  obtain ⟨m, v, rfl, width⟩ := TaskRows.exists_of_merge merged
  refine ⟨rfl, m, v, rfl, rfl, TaskRows.length_of_merge merged gains, ?_, fun w set => ?_⟩
  · rw [width]
    exact Int.toNat_of_nonneg weighable.natural
  · obtain ⟨k, square⟩ := weighable.square w set
    rw [checkWeight, show t.body.weight = some w from set] at fits
    obtain ⟨height, first, fits⟩ := bind_eq_ok.1 fits
    cases leading
    cases first.symm.trans (Tensor.leading_of_shape square)
    split at fits
    · cases fits
    · next same => rw [square, not_not.1 same]

/-! ### Setters -/

namespace TaskBody

variable {t u : TaskBody α}

/-- A weight that is set is a symmetric matrix with a row and a column for each
row of the task; nothing else is asked of it. -/
theorem setWeight_eq_ok [Zero α] [Scalar α] {data : ArrayData α}
    (h : t.setWeight data = .ok u) : ∃ w : RowMatrix α, t.rows = .ok w.height ∧
      w.width = w.height ∧ isSymmetric w ∧ u = { t with weight := some (.matrix w) } := by
  obtain ⟨given, -, h⟩ := bind_eq_ok.1 h
  -- a vector is made a matrix first
  split at h
  all_goals
    obtain ⟨w, -, h⟩ := bind_eq_ok.1 h
    obtain ⟨rows, count, h⟩ := bind_eq_ok.1 h
    split at h
    · next w _ =>
      obtain ⟨shape, h⟩ := throw_then.1 h
      obtain ⟨symmetric, h⟩ := throw_then.1 h
      cases h
      simp only [ne_eq, Bool.or_eq_true, decide_eq_true_eq, not_or, not_not] at shape
      obtain ⟨rfl, width⟩ := shape
      exact ⟨w, count, width, by simpa using symmetric, rfl⟩
    · cases h

/-- A change leaves a number as the gain, and does not spoil what a merge gave. -/
def Mild (change : TaskBody α → Except Error (TaskBody α)) : Prop :=
  ∀ t u, change t = .ok u → (∃ g, t.gain = .scalar g) →
    (∃ g, u.gain = .scalar g) ∧ (t.Labelled → u.Labelled)

theorem mild_setWeight [Zero α] [Scalar α] (data : ArrayData α) : Mild (setWeight data) := by
  intro t u h gain
  obtain ⟨w, count, width, -, rfl⟩ := setWeight_eq_ok h
  refine ⟨gain, fun labelled => ⟨labelled.label, ?_⟩⟩
  obtain ⟨m, v, matrix, reference, length, columns, -⟩ := labelled.arrays
  have height : m.height = w.height := by
    rw [rows, matrix, Tensor.leading_matrix] at count
    exact Except.ok.inj count
  refine ⟨m, v, matrix, reference, length, columns, ?_⟩
  rintro _ ⟨⟩
  rw [Tensor.shape, width, height]

theorem mild_resetWeight : Mild fun t : TaskBody α => .ok t.resetWeight := by
  rintro t _ ⟨⟩ gain
  refine ⟨gain, fun labelled => ⟨labelled.label, ?_⟩⟩
  obtain ⟨m, v, matrix, reference, length, columns, -⟩ := labelled.arrays
  exact ⟨m, v, matrix, reference, length, columns, nofun⟩

theorem mild_attach (o : Object) (name : Except Error String) (size : Int) :
    Mild fun t : TaskBody α => t.attach o name size := by
  intro t u h gain
  dsimp only [attach] at h
  split at h
  · obtain ⟨_, -, h⟩ := bind_eq_ok.1 h
    cases h
  · cases h
    exact ⟨gain, fun labelled => ⟨labelled.label, labelled.arrays⟩⟩

theorem mild_setGain [Scalar α] (gain : Option α) : Mild (setGain gain) := by
  intro t u h _
  obtain ⟨g, -, h⟩ := bind_eq_ok.1 h
  cases h
  exact ⟨⟨g, rfl⟩, fun labelled => ⟨labelled.label, labelled.arrays⟩⟩

end TaskBody

/-! ### The quadratic form -/

section Form

variable [CommRing α] [LinearOrder α] [IsStrictOrderedRing α]

/-- The quadratic form of a matrix has no negative values. -/
def Semidefinite (H : Matrix (Fin n) (Fin n) α) : Prop := ∀ x, 0 ≤ x ⬝ᵥ H *ᵥ x

theorem semidefinite_one : Semidefinite (1 : Matrix (Fin n) (Fin n) α) := by
  intro x
  rw [one_mulVec]
  exact Finset.sum_nonneg fun i _ => mul_self_nonneg (x i)

omit [LinearOrder α] [IsStrictOrderedRing α] in
/-- The Hessian takes the values of the weight on what the rows reach. -/
theorem LeastSquares.own_quadratic (q : LeastSquares α n) (x : Fin n → α) :
    x ⬝ᵥ q.own.1 *ᵥ x = (q.rows *ᵥ x) ⬝ᵥ q.weight *ᵥ (q.rows *ᵥ x) := by
  rw [own, ← mulVec_mulVec, ← mulVec_mulVec, dotProduct_mulVec, vecMul_transpose]

/-- The label of a merged task says that its Hessian is semidefinite, which is so
just when the weight is nonnegative on what the rows reach: in particular when no
weight was set, or a semidefinite one. -/
theorem TaskBody.Labelled.semidefinite_iff {t : TaskBody α} {g : α} (h : t.Labelled)
    (gain : t.gain = .scalar g) (size : t.size = n) :
    t.hessian = some .semidefinite ∧ ∃ q : LeastSquares α n, t.Poses q ∧
      t.objective = .ok (.of q.own) ∧
      (Semidefinite q.own.1 ↔ ∀ x, 0 ≤ (q.rows *ᵥ x) ⬝ᵥ q.weight *ᵥ (q.rows *ᵥ x)) ∧
      (t.weight = none ∨ Semidefinite q.weight → Semidefinite q.own.1) := by
  obtain ⟨m, v, matrix, reference, length, width, weight⟩ := h.arrays
  have width : m.width = n := Int.ofNat_inj.1 (width.trans size)
  obtain ⟨q, poses⟩ := TaskBody.exists_poses matrix reference gain width length weight
  have form : Semidefinite q.own.1 ↔ ∀ x, 0 ≤ (q.rows *ᵥ x) ⬝ᵥ q.weight *ᵥ (q.rows *ᵥ x) :=
    forall_congr' fun x => by rw [q.own_quadratic]
  refine ⟨h.label, q, poses, poses.objective, form, fun given => form.2 fun x => ?_⟩
  rcases given with unset | semidefinite
  · rcases poses.weight with set | ⟨-, unit⟩
    · cases unset.symm.trans set
    · rw [unit]
      exact semidefinite_one _
  · exact semidefinite _

end Form

end ControlHierarchy
