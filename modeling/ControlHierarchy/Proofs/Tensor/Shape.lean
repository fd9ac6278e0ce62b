import ControlHierarchy.Proofs.Outcome
import ControlHierarchy.Tensor.Pile
import ControlHierarchy.Tensor.Product
import Mathlib.Data.List.Basic

/-!
# Shapes

A shape of one or two dimensions tells a vector or a matrix from other arrays,
and what is piled or combined with a vector or a matrix has to be one itself.
-/

namespace ControlHierarchy.Tensor

variable {α : Type}

theorem exists_vector_of_shape {t : Tensor α} {m : Nat} (h : t.shape = [m]) :
    ∃ v, t = .vector v ∧ v.length = m := by
  cases t with
  | scalar a => simp [shape] at h
  | vector v => exact ⟨v, rfl, by simpa [shape] using h⟩
  | matrix k => simp [shape] at h
  | block b => simp [shape, Block.shape] at h

theorem exists_matrix_of_shape {t : Tensor α} {m n : Nat} (h : t.shape = [m, n]) :
    ∃ k, t = .matrix k ∧ k.height = m ∧ k.width = n := by
  cases t with
  | scalar a => simp [shape] at h
  | vector v => simp [shape] at h
  | matrix k =>
    simp only [shape, List.cons.injEq, and_true] at h
    exact ⟨k, rfl, h.1, h.2⟩
  | block b => simp [shape, Block.shape] at h

theorem exists_block_of_shape {t : Tensor α} {depth height width : Nat} {inner : List Nat}
    (h : t.shape = depth :: height :: width :: inner) :
    ∃ b, t = .block b ∧ b.shape = depth :: height :: width :: inner := by
  cases t with
  | block b => exact ⟨b, rfl, h⟩
  | _ => simp [shape] at h

@[simp] theorem size_vector (v : List α) : (vector v).size = v.length := by
  simp [size, shape]

@[simp] theorem leading_matrix (m : RowMatrix α) : (matrix m).leading = .ok m.height := rfl

theorem combine_vector [Zero α] (g : α → α → α) {u v : List α} (h : u.length = v.length) :
    combine g (vector u) (vector v) = .ok (vector (List.zipWith g u v)) := by
  simp [combine, h]

@[simp] theorem length_entries (t : Tensor α) : t.entries.length = t.size := by
  cases t with
  | scalar a => rfl
  | vector v => exact (size_vector v).symm
  | matrix m => simpa [size, shape, entries] using m.length_entries
  | block b => exact b.length_entries

theorem leading_of_shape {t : Tensor α} {m : Nat} {inner : List Nat} (h : t.shape = m :: inner) :
    t.leading = .ok m := by
  rw [Tensor.leading, axis, h]
  rfl

theorem shape_of_leading {t : Tensor α} {m : Nat} (rank : t.rank = 1)
    (leading : t.leading = .ok m) : t.shape = [m] := by
  obtain ⟨d, hd⟩ := List.length_eq_one_iff.1 rank
  rw [Tensor.leading, axis, hd] at leading
  cases leading
  exact hd

/-- Only arrays of one rank are piled. -/
theorem rank_eq_of_pile {top bottom r : Tensor α} (h : top.pile bottom = .ok r) :
    top.rank = bottom.rank := by
  by_contra ranks
  unfold pile at h
  rw [if_pos ranks] at h
  cases h

theorem rank_of_pile_vector {u : List α} {t r : Tensor α} (h : (vector u).pile t = .ok r) :
    t.rank = 1 :=
  (rank_eq_of_pile h).symm

theorem rank_pile {top bottom r : Tensor α} (h : top.pile bottom = .ok r) : r.rank = top.rank := by
  unfold pile at h
  split at h
  · cases h
  · split at h
    · cases h
      rfl
    · split at h
      · cases h
        rfl
      · cases h
    · unfold appendBlocks at h
      split at h
      · cases h
      · split at h
        · cases h
          rfl
        · cases h
    · cases h

/-- Only matrices of the same width are piled on a matrix. -/
theorem pile_matrix_eq_ok {m : RowMatrix α} {t r : Tensor α} :
    (matrix m).pile t = .ok r ↔ ∃ k, ∃ width : m.width = k.width, t = .matrix k ∧
    r = .matrix (m.append k width) := by
  constructor
  · intro h
    obtain ⟨d, e, shape⟩ := List.length_eq_two.1 (rank_eq_of_pile h).symm
    obtain ⟨k, rfl, -⟩ := exists_matrix_of_shape shape
    by_cases width : m.width = k.width
    · rw [pile_matrix width] at h
      cases h
      exact ⟨k, width, rfl, rfl⟩
    · rw [pile_matrix_of_ne width] at h
      cases h
  · rintro ⟨k, width, rfl, rfl⟩
    exact pile_matrix width

theorem pile_vector_eq_ok {v : List α} {t r : Tensor α} :
    (vector v).pile t = .ok r ↔ ∃ u, t = .vector u ∧ r = .vector (v ++ u) := by
  constructor
  · intro h
    obtain ⟨d, shape⟩ := List.length_eq_one_iff.1 (rank_eq_of_pile h).symm
    obtain ⟨u, rfl, -⟩ := exists_vector_of_shape shape
    rw [pile_vector] at h
    cases h
    exact ⟨u, rfl, rfl⟩
  · rintro ⟨u, rfl, rfl⟩
    exact pile_vector v u

/-- Only arrays that agree in all but their first dimension are piled. -/
theorem shapes_of_pile {t u r : Tensor α} (h : t.pile u = .ok r) :
    ∃ m k inner, t.shape = m :: inner ∧ u.shape = k :: inner := by
  cases t with
  | scalar a => cases u <;> simp [pile, rank, shape, Block.shape] at h
  | vector v =>
    obtain ⟨w, rfl, -⟩ := pile_vector_eq_ok.1 h
    exact ⟨_, _, [], rfl, rfl⟩
  | matrix a =>
    obtain ⟨b, width, rfl, -⟩ := pile_matrix_eq_ok.1 h
    exact ⟨_, _, [a.width], rfl, by rw [width, shape]⟩
  | block b =>
    cases u with
    | block c =>
      simp only [pile, appendBlocks] at h
      split at h
      · cases h
      · split at h
        · cases h
        · split at h
          · next same =>
            obtain ⟨height, width, rest⟩ := same
            exact ⟨b.depth, c.depth, b.height :: b.width :: b.inner, rfl, by
              rw [height, width, rest, shape, Block.shape]⟩
          · cases h
    | _ => simp [pile, rank, shape, Block.shape] at h

end ControlHierarchy.Tensor
