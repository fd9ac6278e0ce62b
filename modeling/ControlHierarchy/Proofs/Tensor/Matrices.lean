import ControlHierarchy.Proofs.Tensor.Identity
import Mathlib.Algebra.BigOperators.Fin
import Mathlib.Data.List.OfFn
import Mathlib.Data.Matrix.Mul

/-!
# Matrices in row-major order as matrices

A matrix in row-major order is one of `Matrix`, written down row after row
(`RowMatrix.ofMatrix`), and a list of entries is a vector. Over exact numbers
transposition, products and piling are those of `Matrix`; a weight that was never
set is the unit matrix. What is piled adds up in the products of a transpose with
the pile itself (`gram_piled`, `transpose_piled_mulVec`), which is how a quadratic
form of stacked rows is a sum of quadratic forms.
-/

namespace ControlHierarchy

open Matrix

variable {α : Type} {k l m n : ℕ}

theorem exists_ofFn {v : List α} (length : v.length = n) : ∃ u : Fin n → α, v = List.ofFn u := by
  subst length
  exact ⟨v.get, (List.ofFn_get v).symm⟩

theorem map_range_eq_ofFn {β : Type} (f : ℕ → β) :
    (List.range n).map f = List.ofFn fun i : Fin n => f i := by
  refine List.ext_getElem (by simp) fun i _ _ => ?_
  rw [List.getElem_map, List.getElem_range, List.getElem_ofFn]

/-- The rows of the first matrix above those of the second. -/
def piled (M : Matrix (Fin k) (Fin n) α) (N : Matrix (Fin l) (Fin n) α) :
    Matrix (Fin (k + l)) (Fin n) α := .of (Fin.append M.row N.row)

@[simp] theorem piled_castAdd (M : Matrix (Fin k) (Fin n) α) (N : Matrix (Fin l) (Fin n) α)
    (i : Fin k) (j : Fin n) : piled M N (Fin.castAdd l i) j = M i j :=
  congrFun (Fin.append_left M.row N.row i) j

@[simp] theorem piled_natAdd (M : Matrix (Fin k) (Fin n) α) (N : Matrix (Fin l) (Fin n) α)
    (i : Fin l) (j : Fin n) : piled M N (Fin.natAdd k i) j = N i j :=
  congrFun (Fin.append_right M.row N.row i) j

namespace RowMatrix

/-- A matrix, written down row after row. -/
def ofMatrix (M : Matrix (Fin k) (Fin n) α) : RowMatrix α :=
  ofRows n (List.ofFn fun i => List.ofFn (M.row i)) (by simp)

@[simp] theorem rows_ofMatrix (M : Matrix (Fin k) (Fin n) α) :
    (ofMatrix M).rows = List.ofFn fun i => List.ofFn (M.row i) := rows_ofRows _ _ _

@[simp] theorem width_ofMatrix (M : Matrix (Fin k) (Fin n) α) : (ofMatrix M).width = n := rfl

@[simp] theorem height_ofMatrix (M : Matrix (Fin k) (Fin n) α) : (ofMatrix M).height = k := by
  rw [← length_rows, rows_ofMatrix, List.length_ofFn]

theorem ofMatrix_injective : Function.Injective (ofMatrix : Matrix (Fin k) (Fin n) α → _) := by
  intro M N same
  have rows : (ofMatrix M).rows = (ofMatrix N).rows := congrArg RowMatrix.rows same
  rw [rows_ofMatrix, rows_ofMatrix] at rows
  exact Matrix.ext fun i => congrFun (List.ofFn_injective (congrFun (List.ofFn_injective rows) i))

/-- Every matrix in row-major order is a matrix. -/
theorem exists_ofMatrix {r : RowMatrix α} (height : r.height = k) (width : r.width = n) :
    ∃ M : Matrix (Fin k) (Fin n) α, r = ofMatrix M := by
  subst height width
  have count (i : Fin r.height) : i < r.rows.length := by simp
  have width (i : Fin r.height) : r.rows[i].length = r.width :=
    r.length_of_mem_rows _ (List.getElem_mem (count i))
  have inside (i : Fin r.height) (j : Fin r.width) : j < r.rows[i].length :=
    (width i).symm ▸ j.isLt
  refine ⟨.of fun i j => r.rows[i].get ⟨j, inside i j⟩, ext rfl ?_⟩
  rw [rows_ofMatrix]
  refine List.ext_getElem (by simp) fun i hi _ => ?_
  rw [List.getElem_ofFn]
  refine List.ext_getElem (by simpa using width ⟨i, by simpa using hi⟩) fun j _ _ => ?_
  rw [List.getElem_ofFn]
  rfl

theorem columns_ofMatrix [Zero α] (M : Matrix (Fin k) (Fin n) α) :
    (ofMatrix M).columns = List.ofFn fun j => List.ofFn (Mᵀ.row j) := by
  rw [columns, width_ofMatrix, map_range_eq_ofFn, rows_ofMatrix]
  refine congrArg List.ofFn (funext fun j => ?_)
  rw [List.map_ofFn]
  refine congrArg List.ofFn (funext fun i => ?_)
  simp [transpose_apply]

theorem transpose_ofMatrix [Zero α] (M : Matrix (Fin k) (Fin n) α) :
    (ofMatrix M).transpose = ofMatrix Mᵀ := by
  refine ext (height_ofMatrix M) ?_
  rw [rows_transpose, columns_ofMatrix, rows_ofMatrix]

theorem append_ofMatrix (M : Matrix (Fin k) (Fin n) α) (N : Matrix (Fin l) (Fin n) α)
    (width : (ofMatrix M).width = (ofMatrix N).width) :
    (ofMatrix M).append (ofMatrix N) width = ofMatrix (piled M N) := by
  refine ext rfl ?_
  have rows : (fun i => List.ofFn ((piled M N).row i)) =
      Fin.append (fun i => List.ofFn (M.row i)) fun i => List.ofFn (N.row i) := by
    refine funext fun i => Fin.addCases (fun i => ?_) (fun i => ?_) i
    · rw [Fin.append_left]
      exact congrArg List.ofFn (funext (piled_castAdd M N i))
    · rw [Fin.append_right]
      exact congrArg List.ofFn (funext (piled_natAdd M N i))
  rw [rows_append, rows_ofMatrix, rows_ofMatrix, rows_ofMatrix, rows, List.ofFn_fin_append]

section Products

variable [Semiring α]

theorem dot_ofFn (u v : Fin n → α) : dot (List.ofFn u) (List.ofFn v) = u ⬝ᵥ v := by
  induction n with
  | zero => simp [dot, dotProduct]
  | succ n ih =>
    rw [List.ofFn_succ, List.ofFn_succ, dot_cons, ih, dotProduct, dotProduct, Fin.sum_univ_succ]

theorem mulVec_ofMatrix (M : Matrix (Fin k) (Fin n) α) (v : Fin n → α) :
    (ofMatrix M).mulVec (List.ofFn v) = List.ofFn (M *ᵥ v) := by
  rw [RowMatrix.mulVec, rows_ofMatrix, List.map_ofFn]
  exact congrArg List.ofFn (funext fun i => dot_ofFn (M.row i) v)

theorem vecMul_ofMatrix (u : Fin k → α) (M : Matrix (Fin k) (Fin n) α) :
    vecMul (List.ofFn u) (ofMatrix M) = List.ofFn (u ᵥ* M) := by
  rw [RowMatrix.vecMul, columns_ofMatrix, List.map_ofFn]
  exact congrArg List.ofFn (funext fun j => dot_ofFn u (Mᵀ.row j))

theorem mul_ofMatrix (M : Matrix (Fin k) (Fin m) α) (N : Matrix (Fin m) (Fin n) α) :
    (ofMatrix M).mul (ofMatrix N) = ofMatrix (M * N) := by
  refine ext rfl ?_
  rw [rows_mul, products, rows_ofMatrix, columns_ofMatrix, rows_ofMatrix, List.map_ofFn]
  refine congrArg List.ofFn (funext fun i => ?_)
  rw [Function.comp_apply, List.map_ofFn]
  exact congrArg List.ofFn (funext fun j => dot_ofFn (M.row i) (Nᵀ.row j))

theorem identity_eq_ofMatrix :
    (identity n : RowMatrix α) = ofMatrix (1 : Matrix (Fin n) (Fin n) α) := by
  refine ext rfl ?_
  rw [rows_identity, rows_ofMatrix, map_range_eq_ofFn]
  refine congrArg List.ofFn (funext fun i => ?_)
  rw [map_range_eq_ofFn]
  exact congrArg List.ofFn (funext fun j => by simp [one_apply, Fin.ext_iff])

end Products

theorem shape_ofMatrix (M : Matrix (Fin k) (Fin n) α) :
    (Tensor.matrix (.ofMatrix M)).shape = [k, n] := by
  rw [Tensor.shape, height_ofMatrix, width_ofMatrix]

end RowMatrix

namespace Tensor

variable [Semiring α]

theorem product_ofMatrix (M : Matrix (Fin k) (Fin m) α) (N : Matrix (Fin m) (Fin n) α) :
    (matrix (.ofMatrix M)).product (.matrix (.ofMatrix N)) = .ok (.matrix (.ofMatrix (M * N))) := by
  rw [product_matrix, RowMatrix.width_ofMatrix, RowMatrix.height_ofMatrix, if_pos rfl,
    RowMatrix.mul_ofMatrix]

theorem product_ofFn (M : Matrix (Fin k) (Fin n) α) (v : Fin n → α) :
    (matrix (.ofMatrix M)).product (.vector (List.ofFn v)) =
      .ok (.vector (List.ofFn (M *ᵥ v))) := by
  rw [product_vector, RowMatrix.width_ofMatrix, List.length_ofFn, if_pos rfl,
    RowMatrix.mulVec_ofMatrix]

theorem transpose_ofMatrix (M : Matrix (Fin k) (Fin n) α) :
    (Tensor.matrix (.ofMatrix M)).transpose = .matrix (.ofMatrix Mᵀ) :=
  congrArg Tensor.matrix (RowMatrix.transpose_ofMatrix M)

theorem combine_scalar_ofFn (g : α) (v : Fin n → α) :
    combine (· * ·) (.scalar g) (.vector (List.ofFn v)) = .ok (.vector (List.ofFn (g • v))) := by
  rw [combine, Tensor.map, List.map_ofFn]
  rfl

end Tensor

section Gram

variable [NonUnitalNonAssocSemiring α]

/-- The products of the columns of a pile are the sums of those of its parts. -/
theorem gram_piled (M : Matrix (Fin k) (Fin n) α) (N : Matrix (Fin l) (Fin n) α) :
    (piled M N)ᵀ * piled M N = Mᵀ * M + Nᵀ * N := by
  ext i j
  simp [Matrix.mul_apply, Fin.sum_univ_add]

theorem transpose_piled_mulVec (M : Matrix (Fin k) (Fin n) α) (N : Matrix (Fin l) (Fin n) α)
    (u : Fin k → α) (v : Fin l → α) :
    (piled M N)ᵀ *ᵥ Fin.append u v = Mᵀ *ᵥ u + Nᵀ *ᵥ v := by
  ext i
  simp [Matrix.mulVec, dotProduct, Fin.sum_univ_add]

end Gram

end ControlHierarchy
