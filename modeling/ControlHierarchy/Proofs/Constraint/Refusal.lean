import ControlHierarchy.Proofs.Constraint.Presented
import ControlHierarchy.Proofs.Tensor.Refusal

/-!
# How a merge is refused

A part that does not fit is refused, and the shapes of its arrays decide with
what. Some shapes trip the merge: it stumbles over them before a check has seen
them, and ends with a fault that belongs to no family of errors
(`LinearSystem.Trips`). Inequality rows without any bound are ill defined
(`LinearSystem.Unbounded`), and in all other cases dimensions do not match
(`LinearSystem.kind_of_mergePart`). No array of one or two dimensions trips a
merge (`LinearSystem.not_trips_of_flat`).
-/

namespace ControlHierarchy

variable {α : Type}

namespace Part

variable {n : Nat} {p : Part α} {e : Error}

theorem kind_of_checkBox (failed : p.checkBox n = .error e) :
    e.kind = some .dimensionMismatch := by
  unfold checkBox at failed
  split at failed
  · cases failed
    rfl
  · cases failed

theorem kind_of_checkColumns {kind : RowKind} {matrix : Tensor α}
    (failed : p.checkColumns n kind matrix = .error e) :
    (¬∃ m, matrix.shape = [m, n]) ∧ e.kind = some .dimensionMismatch := by
  constructor
  · intro fits
    have checked : p.checkColumns n kind matrix = .ok () := checkColumns_eq_ok.2 fits
    cases checked.symm.trans failed
  unfold checkColumns at failed
  split at failed
  · split at failed
    · cases failed
      rfl
    · cases failed
  · cases failed
    rfl

end Part

namespace LinearSystem

variable {n : Nat} {s : LinearSystem α} {f : Faces α} {p : Part α} {e : Error}

theorem kind_of_mergeBox [Zero α] [BoundScalar α] (h : s.Presents n f)
    (failed : s.mergeBox n p = .error e) :
    ¬p.system.BoxFits n ∧ e.kind = some .dimensionMismatch := by
  have misfit : ¬p.system.BoxFits n := by
    intro fits
    obtain ⟨s', merged, -⟩ := mergeBox_ok h fits
    cases merged.symm.trans failed
  refine ⟨misfit, ?_⟩
  unfold mergeBox at failed
  split at failed
  · obtain checked | ⟨_, checked, -⟩ := bind_eq_error.1 failed
    · exact Part.kind_of_checkBox checked
    · exact absurd (.inr (Part.checkBox_eq_ok.1 checked)) misfit
  · cases failed

/-! ### Equalities -/

/-- The equalities of a system trip a merge: there is no matrix to speak of, or
the matrix is as it should be and there is no vector to speak of. -/
def EqualitiesTrip (n : Nat) (s : LinearSystem α) : Prop :=
  s.equalityMatrix.rank = 0 ∨ (∃ m, s.equalityMatrix.shape = [m, n]) ∧ s.equalityRhs.rank = 0

theorem EqualitiesTrip.not_fit (h : s.EqualitiesTrip n) : ¬s.EqualitiesFit n := by
  rintro (⟨leading, none⟩ | ⟨m, shape, shape'⟩)
  · rcases h with zero | ⟨-, zero⟩
    · exact Tensor.rank_ne_zero_of_leading leading zero
    · rw [Tensor.size_of_rank_zero zero] at none
      cases none
  · rcases h with zero | ⟨-, zero⟩
    · rw [Tensor.rank, shape] at zero
      cases zero
    · rw [Tensor.rank, shape'] at zero
      cases zero

theorem kind_of_checkEqualities (leading : p.system.equalityMatrix.rank ≠ 0)
    (failed : p.checkEqualities n = .error e) :
    p.system.EqualitiesTrip n ∧ e.kind = none ∨
      ¬p.system.EqualitiesTrip n ∧ e.kind = some .dimensionMismatch := by
  unfold Part.checkEqualities at failed
  obtain columns | ⟨_, columns, failed⟩ := bind_eq_error.1 failed
  · obtain ⟨wrong, kind⟩ := Part.kind_of_checkColumns columns
    refine .inr ⟨?_, kind⟩
    rintro (zero | ⟨shape, -⟩)
    · exact leading zero
    · exact wrong shape
  · obtain ⟨m, shape⟩ := Part.checkColumns_eq_ok.1 columns
    rw [Tensor.leading_of_shape shape, ok_bind] at failed
    obtain none | ⟨entries, some, failed⟩ := bind_eq_error.1 failed
    · obtain ⟨zero, kind⟩ := Tensor.leading_eq_error none
      exact .inl ⟨.inr ⟨⟨m, shape⟩, zero⟩, kind⟩
    · refine .inr ⟨?_, ?_⟩
      · rintro (zero | ⟨-, zero⟩)
        · exact leading zero
        · exact Tensor.rank_ne_zero_of_leading some zero
      · split at failed
        · cases failed
          rfl
        · cases failed

/-! ### Piling onto what was merged -/

theorem kind_of_pileMatrix {matrix t : Tensor α} (h : ∃ m, matrix = .matrix m)
    (failed : matrix.pile t = .error e) : e.kind = some .dimensionMismatch := by
  obtain ⟨m, rfl⟩ := h
  exact Tensor.kind_of_pile_of_rank failed (by simp [Tensor.rank, Tensor.shape])
    (by simp [Tensor.rank, Tensor.shape])

theorem kind_of_pileVector {v : List α} {t : Tensor α}
    (failed : (Tensor.vector v).pile t = .error e) : e.kind = some .dimensionMismatch :=
  Tensor.kind_of_pile_of_rank failed (by simp [Tensor.rank, Tensor.shape])
    (by simp [Tensor.rank, Tensor.shape])

theorem kind_of_pileEqualities (h : s.Presents n f) {matrix rightHandSide : Tensor α}
    (failed : s.pileEqualities matrix rightHandSide = .error e) :
    e.kind = some .dimensionMismatch := by
  obtain ⟨m, made, -⟩ := h.equalityMatrix
  obtain failed | ⟨_, -, failed⟩ := bind_eq_error.1 failed
  · exact kind_of_pileMatrix ⟨m, made⟩ failed
  · obtain failed | ⟨_, -, failed⟩ := bind_eq_error.1 failed
    · rw [h.equalityRhs] at failed
      exact kind_of_pileVector failed
    · cases failed

theorem kind_of_pileBilateral (h : s.Presents n f) {rows : BilateralRows α}
    (failed : s.pileBilateral rows = .error e) : e.kind = some .dimensionMismatch := by
  obtain ⟨m, made, -⟩ := h.rowMatrix
  obtain failed | ⟨_, -, failed⟩ := bind_eq_error.1 failed
  · exact kind_of_pileMatrix ⟨m, made⟩ failed
  · obtain failed | ⟨_, -, failed⟩ := bind_eq_error.1 failed
    · rw [h.rowLower] at failed
      exact kind_of_pileVector failed
    · obtain failed | ⟨_, -, failed⟩ := bind_eq_error.1 failed
      · rw [h.rowUpper] at failed
        exact kind_of_pileVector failed
      · cases failed

theorem kind_of_pileUnilateral (h : s.Presents n f) {rows : UnilateralRows α}
    (failed : s.pileUnilateral rows = .error e) : e.kind = some .dimensionMismatch := by
  obtain ⟨m, made, -⟩ := h.rowMatrix
  obtain failed | ⟨_, -, failed⟩ := bind_eq_error.1 failed
  · exact kind_of_pileMatrix ⟨m, made⟩ failed
  · obtain failed | ⟨_, -, failed⟩ := bind_eq_error.1 failed
    · rw [h.rowUpper] at failed
      exact kind_of_pileVector failed
    · cases failed

/-- Rows and flipped rows are piled on each other. Matrices of one shape fit, but
their bounds may clash. -/
theorem kind_of_pileFlipped [Neg α] {m : Nat} {matrix lower upper : Tensor α}
    (shape : matrix.shape = [m, n]) (dimensions : upper.rank ≠ 0)
    (failed : Sidedness.UnilateralRows.pile ⟨matrix, upper⟩ (Sidedness.flip matrix lower) =
      .error e) :
    upper.Clash lower ∧ e.kind = none ∨
      ¬upper.Clash lower ∧ e.kind = some .dimensionMismatch := by
  obtain ⟨k, rfl, -⟩ := Tensor.exists_matrix_of_shape shape
  have width : k.width = (k.map (-·)).width := (RowMatrix.width_map _ k).symm
  obtain failed | ⟨_, -, failed⟩ := bind_eq_error.1 failed
  · cases (Tensor.pile_matrix width).symm.trans failed
  · obtain failed | ⟨_, -, failed⟩ := bind_eq_error.1 failed
    · have kind := Tensor.kind_of_pile failed dimensions
      rwa [Sidedness.flip, Tensor.clash_map] at kind
    · cases failed

theorem kind_of_mergeEqualities [Neg α] {policy : Policy} (h : s.Presents n f)
    (failed : s.mergeEqualities policy n p = .error e) :
    p.system.EqualitiesTrip n ∧ e.kind = none ∨
      ¬p.system.EqualitiesTrip n ∧ e.kind = some .dimensionMismatch := by
  unfold mergeEqualities at failed
  obtain mute | ⟨present, asked, failed⟩ := bind_eq_error.1 failed
  · obtain none | ⟨_, -, answer⟩ := bind_eq_error.1 mute
    · obtain ⟨zero, kind⟩ := Tensor.leading_eq_error none
      exact .inl ⟨.inl zero, kind⟩
    · cases answer
  · obtain ⟨rows, leading, -⟩ := bind_eq_ok.1 asked
    have dimensions := Tensor.rank_ne_zero_of_leading leading
    cases present with
    | false => cases failed
    | true =>
      rw [if_pos rfl] at failed
      obtain failed | ⟨_, checked, failed⟩ := bind_eq_error.1 failed
      · exact kind_of_checkEqualities dimensions failed
      · obtain ⟨m, shape, leading'⟩ := Part.checkEqualities_eq_ok.1 checked
        have rightHandSide := Tensor.rank_ne_zero_of_leading leading'
        refine .inr ⟨fun trip => trip.elim dimensions fun zero => rightHandSide zero.2, ?_⟩
        split at failed
        · exact kind_of_pileEqualities h failed
        · split at failed
          · exact kind_of_pileBilateral h failed
          · obtain failed | ⟨_, -, failed⟩ := bind_eq_error.1 failed
            · obtain ⟨clash, -⟩ | ⟨-, kind⟩ := kind_of_pileFlipped shape rightHandSide failed
              · exact absurd clash (Tensor.not_clash_of_shape rfl)
              · exact kind
            · exact kind_of_pileUnilateral h failed

/-! ### Inequalities -/

/-- The bounds of rows trip a check: one that it comes to has no dimensions. -/
def BoundsTrip (m : Nat) (s : LinearSystem α) : Prop :=
  s.rowLower.rank = 0 ∨
    (s.rowLower.size = 0 ∨ s.rowLower.leading = .ok m) ∧ s.rowUpper.rank = 0

/-- Both bounds of rows have entries and pass the check, but cannot be piled. -/
def BoundsClash (m : Nat) (s : LinearSystem α) : Prop :=
  s.rowLower.size ≠ 0 ∧ s.rowUpper.size ≠ 0 ∧ s.rowLower.leading = .ok m ∧
    s.rowUpper.leading = .ok m ∧ s.rowUpper.Clash s.rowLower

/-- The inequality rows of a system trip a merge: there is no matrix to speak of,
or the matrix is as it should be and the bounds trip it, which they do in the
unilateral form also when they clash. -/
def RowsTrip (policy : Policy) (n : Nat) (s : LinearSystem α) : Prop :=
  s.rowMatrix.rank = 0 ∨ ∃ m, m ≠ 0 ∧ s.rowMatrix.shape = [m, n] ∧
    (s.BoundsTrip m ∨ policy.bilateral = false ∧ s.BoundsClash m)

/-- There are inequality rows of the right width without any bound. -/
def RowsUnbounded (n : Nat) (s : LinearSystem α) : Prop :=
  ∃ m, m ≠ 0 ∧ s.rowMatrix.shape = [m, n] ∧ s.rowLower.size = 0 ∧ s.rowUpper.size = 0

theorem kind_of_checkBound {matrix bound : Tensor α} {side : Side} {m : Nat}
    (rows : matrix.leading = .ok m)
    (failed : Sidedness.checkBound matrix side bound = .error e) :
    bound.rank = 0 ∧ e.kind = none ∨
      bound.rank ≠ 0 ∧ ¬(bound.size = 0 ∨ bound.leading = .ok m) ∧
        e.kind = some .dimensionMismatch := by
  unfold Sidedness.checkBound at failed
  split at failed
  · next entries =>
    obtain none | ⟨k, leading, failed⟩ := bind_eq_error.1 failed
    · exact .inl (Tensor.leading_eq_error none)
    · rw [rows, ok_bind] at failed
      split at failed
      · next differ =>
        cases failed
        refine .inr ⟨Tensor.rank_ne_zero_of_leading leading, ?_, rfl⟩
        rintro (missing | same)
        · exact entries missing
        · cases leading.symm.trans same
          exact differ rfl
      · cases failed
  · cases failed

theorem kind_of_checkBounds {m : Nat} (rows : s.rowMatrix.leading = .ok m)
    (failed : Sidedness.checkBounds s.rowMatrix s.rowLower s.rowUpper = .error e) :
    s.BoundsTrip m ∧ e.kind = none ∨ ¬s.BoundsTrip m ∧
      ((s.rowLower.size = 0 ∧ s.rowUpper.size = 0) ∧ e.kind = some .constraintDefinition ∨
        ¬(s.rowLower.size = 0 ∧ s.rowUpper.size = 0) ∧ e.kind = some .dimensionMismatch) := by
  unfold Sidedness.checkBounds at failed
  rw [rows] at failed
  by_cases missing : s.rowLower.size = 0 ∧ s.rowUpper.size = 0
  · refine .inr ⟨?_, .inl ⟨missing, ?_⟩⟩
    · rintro (zero | ⟨-, zero⟩)
      · exact absurd missing.1 (by simp [Tensor.size_of_rank_zero zero])
      · exact absurd missing.2 (by simp [Tensor.size_of_rank_zero zero])
    · rw [if_pos (by simpa using missing)] at failed
      cases failed
      rfl
  · rw [if_neg (by simpa using missing)] at failed
    obtain failed | ⟨_, checked, failed⟩ := bind_eq_error.1 failed
    · obtain ⟨zero, kind⟩ | ⟨dimensions, unfit, kind⟩ := kind_of_checkBound rows failed
      · exact .inl ⟨.inl zero, kind⟩
      · refine .inr ⟨?_, .inr ⟨missing, kind⟩⟩
        rintro (zero | ⟨fits, -⟩)
        · exact dimensions zero
        · exact unfit fits
    · have fits := (Sidedness.checkBound_eq_ok .lower rows).1 checked
      obtain ⟨zero, kind⟩ | ⟨dimensions, -, kind⟩ := kind_of_checkBound rows failed
      · exact .inl ⟨.inr ⟨fits, zero⟩, kind⟩
      · refine .inr ⟨?_, .inr ⟨missing, kind⟩⟩
        rintro (zero | ⟨-, zero⟩)
        · exact Tensor.rank_ne_zero_of_missing_or_leading fits zero
        · exact dimensions zero

/-- Bounds that pass the check do not trip it. -/
theorem not_boundsTrip {m : Nat} (rows : s.rowMatrix.leading = .ok m)
    (checked : Sidedness.checkBounds s.rowMatrix s.rowLower s.rowUpper = .ok ()) :
    ¬s.BoundsTrip m ∧ ¬(s.rowLower.size = 0 ∧ s.rowUpper.size = 0) := by
  obtain ⟨bounded, lower, upper⟩ := (Sidedness.checkBounds_eq_ok rows).1 checked
  refine ⟨?_, bounded⟩
  rintro (zero | ⟨-, zero⟩)
  · exact Tensor.rank_ne_zero_of_missing_or_leading lower zero
  · exact Tensor.rank_ne_zero_of_missing_or_leading upper zero

theorem kind_of_toBilateral [BoundScalar α] {m : Nat} (rows : s.rowMatrix.leading = .ok m)
    (failed : Sidedness.toBilateral s.rowMatrix s.rowLower s.rowUpper = .error e) :
    s.BoundsTrip m ∧ e.kind = none ∨ ¬s.BoundsTrip m ∧
      ((s.rowLower.size = 0 ∧ s.rowUpper.size = 0) ∧ e.kind = some .constraintDefinition ∨
        ¬(s.rowLower.size = 0 ∧ s.rowUpper.size = 0) ∧ e.kind = some .dimensionMismatch) := by
  unfold Sidedness.toBilateral at failed
  obtain failed | ⟨_, -, failed⟩ := bind_eq_error.1 failed
  · exact kind_of_checkBounds rows failed
  · rw [rows, ok_bind, ok_bind] at failed
    split at failed
    · cases failed
    · split at failed
      · cases failed
      · cases failed

theorem kind_of_toUnilateral [Neg α] {m : Nat} (shape : s.rowMatrix.shape = [m, n])
    (failed : Sidedness.toUnilateral s.rowMatrix s.rowLower s.rowUpper = .error e) :
    (s.BoundsTrip m ∨ s.BoundsClash m) ∧ e.kind = none ∨ ¬(s.BoundsTrip m ∨ s.BoundsClash m) ∧
      ((s.rowLower.size = 0 ∧ s.rowUpper.size = 0) ∧ e.kind = some .constraintDefinition ∨
        ¬(s.rowLower.size = 0 ∧ s.rowUpper.size = 0) ∧ e.kind = some .dimensionMismatch) := by
  have rows := Tensor.leading_of_shape shape
  unfold Sidedness.toUnilateral at failed
  obtain failed | ⟨_, checked, failed⟩ := bind_eq_error.1 failed
  · obtain ⟨trip, kind⟩ | ⟨smooth, kind⟩ := kind_of_checkBounds rows failed
    · exact .inl ⟨.inl trip, kind⟩
    · refine .inr ⟨?_, kind⟩
      rintro (trip | ⟨lower, upper, leading, leading', -⟩)
      · exact smooth trip
      · have passed := (Sidedness.checkBounds_eq_ok rows).2
          ⟨fun none => lower none.1, .inr leading, .inr leading'⟩
        cases passed.symm.trans failed
  · obtain ⟨smooth, bounded⟩ := not_boundsTrip rows checked
    obtain ⟨-, lower, upper⟩ := (Sidedness.checkBounds_eq_ok rows).1 checked
    split at failed
    · cases failed
    · next hasUpper =>
      split at failed
      · cases failed
      · next hasLower =>
        have leading' := upper.resolve_left hasUpper
        obtain ⟨clash, kind⟩ | ⟨apart, kind⟩ :=
          kind_of_pileFlipped shape (Tensor.rank_ne_zero_of_leading leading') failed
        · exact .inl ⟨.inr ⟨hasLower, hasUpper, lower.resolve_left hasLower, leading', clash⟩, kind⟩
        · refine .inr ⟨?_, .inr ⟨bounded, kind⟩⟩
          rintro (trip | ⟨-, -, -, -, clash⟩)
          · exact smooth trip
          · exact apart clash

/-- Rows that were brought into unilateral form had bounds that do not clash. -/
theorem not_boundsClash [Neg α] {m : Nat} {rows : UnilateralRows α}
    (made : Sidedness.toUnilateral s.rowMatrix s.rowLower s.rowUpper = .ok rows) :
    ¬s.BoundsClash m := by
  rintro ⟨hasLower, hasUpper, -, -, clash⟩
  obtain ⟨_, -, made⟩ := bind_eq_ok.1 made
  rw [if_neg hasUpper, if_neg hasLower] at made
  obtain ⟨_, -, made⟩ := bind_eq_ok.1 made
  obtain ⟨_, piled, -⟩ := bind_eq_ok.1 made
  exact Tensor.not_clash_of_pile piled ((Tensor.clash_map _).2 clash)

section Rows

variable {m : Nat} (nonempty : m ≠ 0) (shape : s.rowMatrix.shape = [m, n])

include nonempty shape

theorem rowsTrip_iff {policy : Policy} :
    s.RowsTrip policy n ↔ s.BoundsTrip m ∨ policy.bilateral = false ∧ s.BoundsClash m := by
  constructor
  · rintro (zero | ⟨k, -, shape', trip⟩)
    · rw [Tensor.rank, shape] at zero
      cases zero
    · rw [shape] at shape'
      cases shape'
      exact trip
  · exact fun trip => .inr ⟨m, nonempty, shape, trip⟩

theorem rowsUnbounded_iff :
    s.RowsUnbounded n ↔ s.rowLower.size = 0 ∧ s.rowUpper.size = 0 := by
  constructor
  · rintro ⟨_, -, -, missing⟩
    exact missing
  · exact fun missing => ⟨m, nonempty, shape, missing⟩

end Rows

/-- Without rows of the right width nothing trips but a matrix without dimensions. -/
theorem not_rowsTrip (policy : Policy) (dimensions : s.rowMatrix.rank ≠ 0)
    (rowless : ¬∃ m, m ≠ 0 ∧ s.rowMatrix.shape = [m, n]) :
    ¬s.RowsTrip policy n ∧ ¬s.RowsUnbounded n := by
  constructor
  · rintro (zero | ⟨m, nonempty, shape, -⟩)
    · exact dimensions zero
    · exact rowless ⟨m, nonempty, shape⟩
  · rintro ⟨m, nonempty, shape, -⟩
    exact rowless ⟨m, nonempty, shape⟩

/-- Rows of the right width are refused for their bounds. -/
theorem kind_of_pileInequalities [Neg α] [BoundScalar α] {t : LinearSystem α} {policy : Policy}
    {m : Nat} (h : s.Presents n f) (shape : t.rowMatrix.shape = [m, n])
    (failed : (if policy.bilateral then
        Sidedness.toBilateral t.rowMatrix t.rowLower t.rowUpper >>= s.pileBilateral
      else Sidedness.toUnilateral t.rowMatrix t.rowLower t.rowUpper >>= s.pileUnilateral) =
        .error e) :
    (t.BoundsTrip m ∨ policy.bilateral = false ∧ t.BoundsClash m) ∧ e.kind = none ∨
      ¬(t.BoundsTrip m ∨ policy.bilateral = false ∧ t.BoundsClash m) ∧
        ((t.rowLower.size = 0 ∧ t.rowUpper.size = 0) ∧ e.kind = some .constraintDefinition ∨
          ¬(t.rowLower.size = 0 ∧ t.rowUpper.size = 0) ∧ e.kind = some .dimensionMismatch) := by
  have rows := Tensor.leading_of_shape shape
  cases bilateral : policy.bilateral with
  | true =>
    rw [bilateral, if_pos rfl] at failed
    obtain failed | ⟨_, made, failed⟩ := bind_eq_error.1 failed
    · simpa using kind_of_toBilateral rows failed
    · obtain ⟨_, checked, -⟩ := bind_eq_ok.1 made
      obtain ⟨smooth, bounded⟩ := not_boundsTrip rows checked
      exact .inr ⟨by simpa using smooth, .inr ⟨bounded, kind_of_pileBilateral h failed⟩⟩
  | false =>
    rw [bilateral, if_neg Bool.false_ne_true] at failed
    obtain failed | ⟨_, made, failed⟩ := bind_eq_error.1 failed
    · simpa using kind_of_toUnilateral shape failed
    · obtain ⟨_, checked, -⟩ := bind_eq_ok.1 made
      obtain ⟨smooth, bounded⟩ := not_boundsTrip rows checked
      have apart : ¬t.BoundsClash m := not_boundsClash made
      exact .inr ⟨by simp [smooth, apart], .inr ⟨bounded, kind_of_pileUnilateral h failed⟩⟩

theorem kind_of_mergeInequalities [Neg α] [BoundScalar α] {policy : Policy} (h : s.Presents n f)
    (failed : s.mergeInequalities policy n p = .error e) :
    p.system.RowsTrip policy n ∧ e.kind = none ∨ ¬p.system.RowsTrip policy n ∧
      (p.system.RowsUnbounded n ∧ e.kind = some .constraintDefinition ∨
        ¬p.system.RowsUnbounded n ∧ e.kind = some .dimensionMismatch) := by
  unfold mergeInequalities at failed
  obtain mute | ⟨present, asked, failed⟩ := bind_eq_error.1 failed
  · obtain none | ⟨_, -, answer⟩ := bind_eq_error.1 mute
    · obtain ⟨zero, kind⟩ := Tensor.leading_eq_error none
      exact .inl ⟨.inl zero, kind⟩
    · cases answer
  · obtain ⟨m, leading, -⟩ := bind_eq_ok.1 asked
    have dimensions := Tensor.rank_ne_zero_of_leading leading
    cases present with
    | false => cases failed
    | true =>
      rw [if_pos rfl, leading, ok_bind] at failed
      by_cases empty : m = 0
      · rw [if_pos empty] at failed
        cases failed
        have rowless : ¬∃ m, m ≠ 0 ∧ p.system.rowMatrix.shape = [m, n] := by
          rintro ⟨k, nonempty, shape⟩
          cases (Tensor.leading_of_shape shape).symm.trans leading
          exact nonempty empty
        obtain ⟨smooth, bounded⟩ := not_rowsTrip policy dimensions rowless
        exact .inr ⟨smooth, .inr ⟨bounded, rfl⟩⟩
      · rw [if_neg empty] at failed
        obtain failed | ⟨_, columns, failed⟩ := bind_eq_error.1 failed
        · obtain ⟨wrong, kind⟩ := Part.kind_of_checkColumns failed
          obtain ⟨smooth, bounded⟩ := not_rowsTrip policy dimensions
            fun rows => wrong ⟨_, rows.choose_spec.2⟩
          exact .inr ⟨smooth, .inr ⟨bounded, kind⟩⟩
        · obtain ⟨k, shape⟩ := Part.checkColumns_eq_ok.1 columns
          cases (Tensor.leading_of_shape shape).symm.trans leading
          rw [rowsTrip_iff empty shape, rowsUnbounded_iff empty shape]
          exact kind_of_pileInequalities h shape failed

/-! ### Parts -/

/-- The arrays of a system trip a merge over `n` variables: those of its
equalities or of its inequality rows do, when all before them fit. -/
def Trips (policy : Policy) (n : Nat) (s : LinearSystem α) : Prop :=
  s.BoxFits n ∧ (s.EqualitiesTrip n ∨ s.EqualitiesFit n ∧ s.RowsTrip policy n)

/-- The inequality rows of a system have no bound, when all before them fits. -/
def Unbounded (n : Nat) (s : LinearSystem α) : Prop :=
  s.BoxFits n ∧ s.EqualitiesFit n ∧ s.RowsUnbounded n

/-- What a system that does not fit is refused with; a fault is of no kind. -/
def RefusedWith (policy : Policy) (n : Nat) (s : LinearSystem α) : Option ErrorKind → Prop
  | none => s.Trips policy n
  | some .constraintDefinition => ¬s.Trips policy n ∧ s.Unbounded n
  | some .dimensionMismatch => ¬s.Trips policy n ∧ ¬s.Unbounded n
  | some _ => False

theorem refusedWith_of_cases {policy : Policy} {kind : Option ErrorKind}
    (h : s.Trips policy n ∧ kind = none ∨ ¬s.Trips policy n ∧
      (s.Unbounded n ∧ kind = some .constraintDefinition ∨
        ¬s.Unbounded n ∧ kind = some .dimensionMismatch)) : s.RefusedWith policy n kind := by
  rcases h with ⟨trip, rfl⟩ | ⟨smooth, ⟨rows, rfl⟩ | ⟨bounded, rfl⟩⟩
  · exact trip
  · exact ⟨smooth, rows⟩
  · exact ⟨smooth, bounded⟩

/-- There is one kind that a system is refused with. -/
theorem RefusedWith.unique {policy : Policy} {kind kind' : Option ErrorKind}
    (h : s.RefusedWith policy n kind) (h' : s.RefusedWith policy n kind') : kind = kind' := by
  unfold RefusedWith at h h'
  split at h <;> split at h' <;> simp_all

/-- What a part that cannot be merged is refused with. -/
theorem kind_of_mergePart [Zero α] [Neg α] [BoundScalar α] {policy : Policy} (h : s.Presents n f)
    (failed : s.mergePart policy n p = .error e) : p.system.RefusedWith policy n e.kind := by
  apply refusedWith_of_cases
  obtain failed | ⟨s₁, box, failed⟩ := bind_eq_error.1 failed
  · obtain ⟨misfit, kind⟩ := kind_of_mergeBox h failed
    exact .inr ⟨fun trip => misfit trip.1, .inr ⟨fun rows => misfit rows.1, kind⟩⟩
  have boxFits := boxFits_of_mergeBox box
  obtain ⟨_, box', h₁⟩ := mergeBox_ok h boxFits
  cases box.symm.trans box'
  obtain failed | ⟨s₂, equalities, failed⟩ := bind_eq_error.1 failed
  · have misfit : ¬p.system.EqualitiesFit n := by
      intro fits
      obtain ⟨_, merged, -⟩ := mergeEqualities_ok policy h₁ fits
      cases merged.symm.trans failed
    obtain ⟨trip, kind⟩ | ⟨smooth, kind⟩ := kind_of_mergeEqualities h₁ failed
    · exact .inl ⟨⟨boxFits, .inl trip⟩, kind⟩
    · refine .inr ⟨?_, .inr ⟨fun rows => misfit rows.2.1, kind⟩⟩
      rintro ⟨-, trip | ⟨fits, -⟩⟩
      · exact smooth trip
      · exact misfit fits
  have equalitiesFit := equalitiesFit_of_mergeEqualities h₁ equalities
  obtain ⟨_, equalities', h₂⟩ := mergeEqualities_ok policy h₁ equalitiesFit
  cases equalities.symm.trans equalities'
  have trips : p.system.Trips policy n ↔ p.system.RowsTrip policy n :=
    ⟨fun trip => (trip.2.resolve_left fun early => early.not_fit equalitiesFit).2,
      fun trip => ⟨boxFits, .inr ⟨equalitiesFit, trip⟩⟩⟩
  have unbounded : p.system.Unbounded n ↔ p.system.RowsUnbounded n :=
    ⟨fun rows => rows.2.2, fun rows => ⟨boxFits, equalitiesFit, rows⟩⟩
  rw [trips, unbounded]
  exact kind_of_mergeInequalities h₂ failed

theorem RowsTrip.not_fit {policy : Policy} (h : s.RowsTrip policy n) : ¬s.InequalitiesFit n := by
  rintro (⟨leading, -⟩ | ⟨k, nonempty, shape, lower, upper, -⟩)
  · rcases h with zero | ⟨m, nonempty, shape, -⟩
    · exact Tensor.rank_ne_zero_of_leading leading zero
    · cases (Tensor.leading_of_shape shape).symm.trans leading
      exact nonempty rfl
  · rw [rowsTrip_iff nonempty shape] at h
    rcases h with (zero | ⟨-, zero⟩) | ⟨-, hasLower, -, -, -, clash⟩
    · exact Tensor.rank_ne_zero_of_missing_or_leading (lower.imp_right Tensor.leading_of_shape) zero
    · exact Tensor.rank_ne_zero_of_missing_or_leading (upper.imp_right Tensor.leading_of_shape) zero
    · obtain ⟨_, _, _, _, _, -, shape', -⟩ := clash
      rw [lower.resolve_left hasLower] at shape'
      cases shape'

theorem Trips.not_fits {policy : Policy} (h : s.Trips policy n) : ¬s.Fits n := by
  rintro ⟨-, equalities, inequalities⟩
  rcases h.2 with trip | ⟨-, trip⟩
  · exact trip.not_fit equalities
  · exact trip.not_fit inequalities

/-- All arrays of a system have one or two dimensions. -/
def Flat (s : LinearSystem α) : Prop := ∀ role, (s.get role).rank = 1 ∨ (s.get role).rank = 2

theorem not_trips_of_flat {policy : Policy} (flat : s.Flat) : ¬s.Trips policy n := by
  have dimensions (role : SystemArray) : (s.get role).rank ≠ 0 := by
    rcases flat role with one | two <;> omega
  have few (role : SystemArray) : (s.get role).rank ≤ 2 := by
    rcases flat role with one | two <;> omega
  rintro ⟨-, (zero | ⟨-, zero⟩) | ⟨-, zero | ⟨m, -, -, trip⟩⟩⟩
  · exact dimensions .equalityMatrix zero
  · exact dimensions .equalityRhs zero
  · exact dimensions .rowMatrix zero
  · rcases trip with (zero | ⟨-, zero⟩) | ⟨-, -, -, -, -, clash⟩
    · exact dimensions .rowLower zero
    · exact dimensions .rowUpper zero
    · exact Tensor.not_clash_of_rank (few .rowUpper) clash

/-- Without arrays that trip a merge the policy has no say in the refusal. -/
theorem RefusedWith.of_flat {policy : Policy} {kind : Option ErrorKind} (flat : s.Flat)
    (h : s.RefusedWith policy n kind) :
    kind ≠ none ∧ ∀ policy', s.RefusedWith policy' n kind := by
  have smooth (policy : Policy) : ¬s.Trips policy n := not_trips_of_flat flat
  unfold RefusedWith at h ⊢
  split at h
  · exact absurd h (smooth policy)
  · exact ⟨Option.some_ne_none _, fun policy' => ⟨smooth policy', h.2⟩⟩
  · exact ⟨Option.some_ne_none _, fun policy' => ⟨smooth policy', h.2⟩⟩
  · exact h.elim

/-! ### Lists of parts -/

/-- The first part that does not fit decides what a merge is refused with. -/
theorem kind_of_merge [Zero α] [Neg α] [BoundScalar α] (policy : Policy) (name : String)
    {parts : List (Part α)} {blank : LinearSystem α} (room : free n = .ok blank)
    (first : FirstWithout (fun q => q.system.Fits n) parts p) :
    ∃ e, merge policy name n parts = .error e ∧ p.system.RefusedWith policy n e.kind := by
  obtain ⟨ready, more, rfl, fits, misfit⟩ := first
  obtain ⟨k, count, empty⟩ := presents_free room
  obtain rfl := Int.ofNat_inj.1 count
  obtain ⟨t, run, presents⟩ := foldlM_mergePart_ok policy empty fits
  cases step : t.mergePart policy n p with
  | ok t' => exact absurd (fits_of_mergePart presents step) misfit
  | error e =>
    refine ⟨e, ?_, kind_of_mergePart presents step⟩
    unfold merge mergeParts
    rw [room, ok_bind, List.foldlM_append, run, ok_bind, List.foldlM_cons, step]
    rfl

end LinearSystem

end ControlHierarchy
