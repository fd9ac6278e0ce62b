import ControlHierarchy.Room
import ControlHierarchy.Proofs.Task.Merging
import ControlHierarchy.Proofs.Tensor.Refusal

/-!
# How a merge of tasks is refused

A task whose gain is a number can be merged when it has a matrix of the right
width, a vector with an entry for each row, and a square weight with as many
rows (`TaskBody.Fits`). Some other shapes trip the merge, which multiplies before
it compares (`TaskBody.Trips`). In all other cases dimensions do not match
(`TaskRows.kind_of_pileTask`).
-/

namespace ControlHierarchy

variable {α : Type}

namespace TaskBody

/-- A task fits into a merge over `n` variables. Beside the shapes, there has to be room
for an identity matrix in the place of a weight that was never set: with `k` rows this
has `k * k` entries, which must be fewer than `Index.capacity` (`fits_iff`). -/
structure Fits (n : Nat) (t : TaskBody α) : Prop where
  room : t.checkRoom = .ok ()
  shapes : ∃ k, t.matrix.shape = [k, n] ∧ t.reference.shape = [k] ∧
    ∀ w ∈ t.weight, w.shape = [k, k]

/-- A task trips a merge over `n` variables: there is no room for its weight, or
the number of its rows cannot be told, or a weight as it should be cannot be
multiplied by the matrix or, when the matrix has the right shape, by the reference. -/
def Trips (n : Nat) (t : TaskBody α) : Prop :=
  t.checkRoom ≠ .ok () ∨ t.matrix.rank = 0 ∨ ∃ k, t.matrix.leading = .ok k ∧
    (∀ w ∈ t.weight, w.shape = [k, k]) ∧
    (¬t.matrix.IsFactor k ∨ t.matrix.shape = [k, n] ∧ ¬t.reference.IsFactor k)

variable {t : TaskBody α} {n k : Nat} {e : Error}

theorem kind_of_checkRoom (failed : t.checkRoom = .error e) : e.kind = none := by
  unfold checkRoom at failed
  split at failed
  · exact Tensor.kind_of_checkShape failed
  · cases failed

/-- The weight in force has the shape that it should have if it was not set to
anything else. -/
theorem weightInForce_of_leading [Zero α] [One α] (leading : t.matrix.leading = .ok k) :
    ∃ w, t.weightInForce = .ok w ∧ (w.shape = [k, k] ↔ ∀ u ∈ t.weight, u.shape = [k, k]) := by
  unfold weightInForce
  cases t.weight with
  | none =>
    refine ⟨.matrix (.identity k), ?_, ?_⟩
    · rw [rows, leading]
      rfl
    · exact iff_of_true rfl (by simp)
  | some w => exact ⟨w, rfl, by simp⟩

theorem trips_iff (room : t.checkRoom = .ok ()) (leading : t.matrix.leading = .ok k) :
    t.Trips n ↔ (∀ w ∈ t.weight, w.shape = [k, k]) ∧
      (¬t.matrix.IsFactor k ∨ t.matrix.shape = [k, n] ∧ ¬t.reference.IsFactor k) := by
  constructor
  · rintro (noRoom | zero | ⟨k', leading', trip⟩)
    · exact absurd room noRoom
    · exact absurd zero (Tensor.rank_ne_zero_of_leading leading)
    · cases leading.symm.trans leading'
      exact trip
  · intro trip
    exact .inr (.inr ⟨k, leading, trip⟩)

theorem Trips.not_fits (h : t.Trips n) : ¬t.Fits n := by
  intro fits
  obtain ⟨k, matrix, reference, -⟩ := fits.shapes
  obtain ⟨-, noFactor | ⟨-, noFactor⟩⟩ :=
    (trips_iff fits.room (Tensor.leading_of_shape matrix)).1 h
  · obtain ⟨m, isMatrix, height, -⟩ := Tensor.exists_matrix_of_shape matrix
    rw [isMatrix, Tensor.isFactor_matrix] at noFactor
    exact noFactor height
  · obtain ⟨v, isVector, length⟩ := Tensor.exists_vector_of_shape reference
    rw [isVector, Tensor.isFactor_vector] at noFactor
    exact noFactor length

end TaskBody

namespace TaskRows

variable [Zero α] [One α] [Add α] [Mul α] {t : TaskBody α} {m : RowMatrix α} {v : List α} {g : α}
  {e : Error}

/-- A task that fits can be merged, and the rows keep their width. -/
theorem pileTask_ok (gain : t.gain = .scalar g) (fits : t.Fits m.width) :
    ∃ k u, k.width = m.width ∧
      pileTask ⟨.matrix m, .vector v⟩ t = .ok ⟨.matrix k, .vector u⟩ := by
  obtain ⟨k, matrix, reference, weight⟩ := fits.shapes
  have leading : t.matrix.leading = .ok k := Tensor.leading_of_shape matrix
  obtain ⟨_, force, square⟩ := TaskBody.weightInForce_of_leading leading
  obtain ⟨w, rfl, height, rfl⟩ := Tensor.exists_matrix_of_shape (square.2 weight)
  obtain ⟨l, product, width⟩ := Tensor.product_isMatrix_iff.2 matrix
  obtain ⟨u, product'⟩ := Tensor.product_isVector_iff.2 reference
  have brought : t.weighted = .ok ⟨.matrix l, .vector (u.map (g * ·))⟩ := by
    rw [TaskBody.weighted, force, ok_bind, TaskBody.rows, leading, ok_bind]
    refine throw_then.2 ⟨not_not.2 (square.2 weight), ?_⟩
    rw [product, ok_bind, product', ok_bind, gain]
    rfl
  exact ⟨_, _, RowMatrix.width_append m l width.symm,
    pileTask_eq_ok.2 ⟨_, brought, above_eq_ok.2 ⟨l, _, width.symm, rfl, rfl⟩⟩⟩

theorem fits_of_pileTask {r : TaskRows α} (gain : t.gain = .scalar g)
    (room : t.checkRoom = .ok ()) (run : pileTask ⟨.matrix m, .vector v⟩ t = .ok r) :
    t.Fits m.width := by
  obtain ⟨q, brought, piled⟩ := pileTask_eq_ok.1 run
  obtain ⟨l, x, width, rfl, -⟩ := above_eq_ok.1 piled
  obtain ⟨w, force, brought⟩ := bind_eq_ok.1 brought
  obtain ⟨k, leading, brought⟩ := bind_eq_ok.1 brought
  obtain ⟨square, brought⟩ := throw_then.1 brought
  obtain ⟨matrix, product, brought⟩ := bind_eq_ok.1 brought
  obtain ⟨reference, product', brought⟩ := bind_eq_ok.1 brought
  rw [gain] at brought
  cases reference with
  | vector u =>
    cases brought
    obtain ⟨_, force', weight⟩ := TaskBody.weightInForce_of_leading leading
    cases force.symm.trans force'
    obtain ⟨w, rfl, height, rfl⟩ := Tensor.exists_matrix_of_shape (not_not.1 square)
    exact ⟨room, w.width, Tensor.product_isMatrix_iff.1 ⟨l, product, width.symm⟩,
      Tensor.product_isVector_iff.1 ⟨u, product'⟩, weight.1 (not_not.1 square)⟩
  | scalar a => cases brought
  | matrix k => cases brought
  | block b => cases brought

/-- With a weight of its own or without, a task is asked for its rows. -/
theorem pileTask_of_noRows {r : TaskRows α} (failed : t.matrix.leading = .error e) :
    pileTask r t = .error e := by
  unfold pileTask TaskBody.weightInForce TaskBody.rows
  rw [failed]
  cases t.weight with
  | none => rfl
  | some w => rfl

/-- What a task that cannot be merged is refused with. -/
theorem kind_of_pileTask (gain : t.gain = .scalar g) (room : t.checkRoom = .ok ())
    (failed : pileTask ⟨.matrix m, .vector v⟩ t = .error e) :
    t.Trips m.width ∧ e.kind = none ∨ ¬t.Trips m.width ∧ e.kind = some .dimensionMismatch := by
  cases leading : t.matrix.leading with
  | error e' =>
    cases (pileTask_of_noRows leading).symm.trans failed
    obtain ⟨zero, kind⟩ := Tensor.leading_eq_error leading
    exact .inl ⟨.inr (.inl zero), kind⟩
  | ok k =>
    unfold pileTask at failed
    obtain ⟨_, force, weight⟩ := TaskBody.weightInForce_of_leading leading
    rw [TaskBody.trips_iff room leading, ← weight]
    rw [force, ok_bind, TaskBody.rows, leading, ok_bind] at failed
    split at failed
    · next wrong =>
      cases failed
      exact .inr ⟨fun trip => wrong trip.1, rfl⟩
    · next square =>
      rw [not_not] at square
      obtain ⟨w, rfl, height, rfl⟩ := Tensor.exists_matrix_of_shape square
      rw [← bind_assoc] at failed
      obtain failed | ⟨_, piled, failed⟩ := bind_eq_error.1 failed
      · obtain ⟨noFactor, kind⟩ | ⟨factor, wrong, kind⟩ := Tensor.kind_of_pileProduct height failed
        · exact .inl ⟨⟨square, .inl noFactor⟩, kind⟩
        · refine .inr ⟨?_, kind⟩
          rintro ⟨-, noFactor | ⟨shape, -⟩⟩
          · exact noFactor factor
          · exact wrong shape
      have shape := Tensor.shape_of_pileProduct piled
      obtain ⟨_, product, -⟩ := bind_eq_ok.1 piled
      have factor := Tensor.isFactor_of_product height product
      obtain failed | ⟨_, product', failed⟩ := bind_eq_error.1 failed
      · have noFactor := Tensor.not_isFactor_of_product height failed
        exact .inl ⟨⟨square, .inr ⟨shape, noFactor⟩⟩, Tensor.kind_of_product failed⟩
      have factor' := Tensor.isFactor_of_product height product'
      rw [gain] at failed
      obtain failed | ⟨_, -, failed⟩ := bind_eq_error.1 failed
      · cases failed
      obtain failed | ⟨_, -, failed⟩ := bind_eq_error.1 failed
      · refine .inr ⟨?_, Tensor.kind_of_pile_of_rank failed ?_ ?_⟩
        · rintro ⟨-, noFactor | ⟨-, noFactor⟩⟩
          · exact noFactor factor
          · exact noFactor factor'
        · simp [Tensor.rank, Tensor.shape]
        · simp [Tensor.rank, Tensor.shape]
      · cases failed

/-! ### Lists of parts -/

variable {n : Int} {parts : List (TaskBody α)}

theorem foldlM_pileTask_ok (width : m.width = n.toNat)
    (gains : ∀ t ∈ parts, ∃ g, t.gain = .scalar g) (fits : ∀ t ∈ parts, t.Fits n.toNat) :
    ∃ k u, k.width = n.toNat ∧
      parts.foldlM pileTask ⟨.matrix m, .vector v⟩ = .ok ⟨.matrix k, .vector u⟩ := by
  induction parts generalizing m v with
  | nil => exact ⟨m, v, width, rfl⟩
  | cons t parts ih =>
    rw [List.forall_mem_cons] at gains fits
    obtain ⟨g, gain⟩ := gains.1
    obtain ⟨k, u, same, step⟩ := pileTask_ok (v := v) gain (width ▸ fits.1)
    obtain ⟨l, x, width', rest⟩ := ih (same.trans width) gains.2 fits.2 (v := u)
    refine ⟨l, x, width', ?_⟩
    rw [List.foldlM_cons, step, ok_bind, rest]

theorem merge_ok {blank : RowMatrix α} (room : RowMatrix.withoutRows n = .ok blank)
    (gains : ∀ t ∈ parts, ∃ g, t.gain = .scalar g) (fits : ∀ t ∈ parts, t.Fits n.toNat) :
    ∃ r, merge n parts = .ok r := by
  cases withoutRows_eq_ok room
  obtain ⟨k, u, -, run⟩ := foldlM_pileTask_ok (v := []) (RowMatrix.width_empty _) gains fits
  unfold merge
  rw [room, ok_bind, run]
  exact ⟨_, rfl⟩

/-- The first task that does not fit decides what a merge is refused with, if
there is room for its weight. -/
theorem kind_of_merge {blank : RowMatrix α} (room : RowMatrix.withoutRows n = .ok blank)
    (gains : ∀ t ∈ parts, ∃ g, t.gain = .scalar g)
    (first : FirstWithout (fun t => t.Fits n.toNat) parts t) (weight : t.checkRoom = .ok ()) :
    ∃ e, merge n parts = .error e ∧
      (t.Trips n.toNat ∧ e.kind = none ∨
        ¬t.Trips n.toNat ∧ e.kind = some .dimensionMismatch) := by
  obtain ⟨g, gain⟩ := gains t first.mem
  obtain ⟨ready, more, rfl, fits, misfit⟩ := first
  cases withoutRows_eq_ok room
  obtain ⟨k, u, width, run⟩ :=
    foldlM_pileTask_ok (v := []) (RowMatrix.width_empty _)
      (fun q hq => gains q (List.mem_append_left _ hq)) fits
  cases step : pileTask ⟨.matrix k, .vector u⟩ t with
  | ok r => exact absurd (width ▸ fits_of_pileTask gain weight step) misfit
  | error e =>
    refine ⟨e, ?_, width ▸ kind_of_pileTask gain weight step⟩
    unfold merge
    rw [room, ok_bind, List.foldlM_append, run, ok_bind, List.foldlM_cons, step]
    rfl

end TaskRows

end ControlHierarchy
