import ControlHierarchy.Proofs.Constraint.Sides

/-!
# What a merge does

When a merge succeeds, the arrays of every part fit together over the variables
of the merge, and its own arrays list what the parts say, each part in the form
of the policy. Each step of the merge has two laws. Forward, a part that fits is
added to what has been listed so far (`mergePart_ok`); backward, a part that was
added fits (`fits_of_mergePart`). So a run over all parts has one law
(`presents_of_merge`), and since merged arrays say what they list
(`Presents.faces_eq`), it can be used again for a merge of merges.
-/

namespace ControlHierarchy

variable {α : Type}

namespace Part

variable {n : Nat} {p : Part α}

theorem checkBox_eq_ok {u : Unit} :
    p.checkBox n = .ok u ↔ p.system.boxLower.shape = [n] ∧ p.system.boxUpper.shape = [n] := by
  unfold checkBox
  rw [throw_unless]
  simp only [ne_eq, List.map_eq_singleton_iff, Int.ofNat_eq_natCast, Int.ofNat_inj,
    exists_eq_right, decide_not, Bool.or_eq_true, Bool.not_eq_eq_eq_not, Bool.not_true,
    decide_eq_false_iff_not, not_or, Decidable.not_not, pure_eq_ok, and_true]

theorem checkColumns_eq_ok {kind : RowKind} {matrix : Tensor α} {u : Unit} :
    p.checkColumns n kind matrix = .ok u ↔ ∃ m, matrix.shape = [m, n] := by
  unfold checkColumns
  split
  · next m columns shape =>
    rw [throw_unless]
    simp only [ne_eq, Int.ofNat_inj, Decidable.not_not, pure_eq_ok, and_true, shape,
      List.cons.injEq, exists_and_right, exists_eq', true_and]
  · next other =>
    constructor
    · intro h
      cases h
    · rintro ⟨m, h⟩
      exact absurd h (other m n)

theorem checkEqualities_eq_ok :
    p.checkEqualities n = .ok () ↔
      ∃ m, p.system.equalityMatrix.shape = [m, n] ∧ p.system.equalityRhs.leading = .ok m := by
  unfold checkEqualities
  rw [then_eq_ok, checkColumns_eq_ok]
  constructor
  · rintro ⟨⟨m, shape⟩, h⟩
    rw [Tensor.leading_of_shape shape, ok_bind, bind_eq_ok] at h
    obtain ⟨entries, leading, h⟩ := h
    rw [throw_unless, not_not] at h
    exact ⟨m, shape, h.1 ▸ leading⟩
  · rintro ⟨m, shape, leading⟩
    refine ⟨⟨m, shape⟩, ?_⟩
    rw [Tensor.leading_of_shape shape, leading, ok_bind, ok_bind, throw_unless]
    exact ⟨not_not.2 rfl, rfl⟩

end Part

namespace LinearSystem

variable {n : Nat} {s : LinearSystem α} {f : Faces α} {p : Part α}

theorem hasBox_eq_false_iff : s.hasBox = false ↔ s.boxLower.size = 0 ∧ s.boxUpper.size = 0 := by
  simp [hasBox]

theorem BoxFits.shapes (fits : s.BoxFits n) (present : s.hasBox) :
    s.boxLower.shape = [n] ∧ s.boxUpper.shape = [n] := by
  refine fits.resolve_left fun missing => ?_
  rw [hasBox_eq_false_iff.2 missing] at present
  exact Bool.false_ne_true present

theorem mergeBox_ok [Zero α] [BoundScalar α] (h : s.Presents n f) (fits : p.system.BoxFits n) :
    ∃ s', s.mergeBox n p = .ok s' ∧
    s'.Presents n { f with box := Faces.meet f.box p.system.faces.box } := by
  unfold mergeBox
  by_cases present : p.system.hasBox
  · obtain ⟨lowerShape, upperShape⟩ := fits.shapes present
    obtain ⟨l, hl, ll⟩ := Tensor.exists_vector_of_shape lowerShape
    obtain ⟨u, hu, lu⟩ := Tensor.exists_vector_of_shape upperShape
    have nonempty : n ≠ 0 := by
      intro zero
      simp [hasBox, hl, hu, ll, lu, zero] at present
    have checked : p.checkBox n = .ok () := Part.checkBox_eq_ok.2 ⟨lowerShape, upperShape⟩
    have read : p.system.faces.box = some (l, u) := by
      simp [faces, present, hl, hu, Tensor.entries]
    rw [if_pos present, checked, ok_bind, read]
    have lower := h.boxLower
    have upper := h.boxUpper
    cases box : f.box with
    | none =>
      rw [box] at lower upper
      rw [if_pos (by simp [upper])]
      refine ⟨_, rfl, { h with boxLower := hl, boxUpper := hu, boxLength := ?_ }⟩
      rintro b ⟨⟩
      exact ⟨nonempty, ll, lu⟩
    | some b =>
      rw [box] at lower upper
      obtain ⟨-, bl, bu⟩ := h.boxLength b box
      rw [if_neg (by simp [upper, bu, nonempty]), lower, upper, hl, hu, Option.elim_some,
        Option.elim_some, Tensor.combine_vector _ (bl.trans ll.symm),
        Tensor.combine_vector _ (bu.trans lu.symm)]
      refine ⟨_, rfl, { h with boxLower := rfl, boxUpper := rfl, boxLength := ?_ }⟩
      rintro c ⟨⟩
      exact ⟨nonempty, by simp [bl, ll], by simp [bu, lu]⟩
  · have read : p.system.faces.box = none := by simp [faces, present]
    rw [if_neg present, read, Faces.meet_none]
    exact ⟨s, rfl, h⟩

/-- Only a box that fits is merged. -/
theorem boxFits_of_mergeBox [Zero α] [BoundScalar α] {s' : LinearSystem α}
    (h : s.mergeBox n p = .ok s') :
    p.system.BoxFits n := by
  unfold mergeBox at h
  by_cases present : p.system.hasBox
  · rw [if_pos present] at h
    obtain ⟨_, checked, -⟩ := bind_eq_ok.1 h
    exact .inr (Part.checkBox_eq_ok.1 checked)
  · exact .inl (hasBox_eq_false_iff.1 (by simpa using present))

/-! ### Piling -/

theorem pileEqualities_ok (h : s.Presents n f) {m : RowMatrix α} {b : List α} (width : m.width = n)
    (height : m.height = b.length) :
    ∃ s', s.pileEqualities (.matrix m) (.vector b) = .ok s' ∧
      s'.Presents n { f with equations := f.equations ++ m.rows.zip b } := by
  obtain ⟨k, hk, wk, rk⟩ := h.equalityMatrix
  have length : m.rows.length = b.length := by rw [RowMatrix.length_rows, height]
  unfold pileEqualities
  rw [hk, h.equalityRhs, Tensor.pile_matrix (wk.trans width.symm), ok_bind, Tensor.pile_vector,
    ok_bind]
  refine ⟨_, rfl, { h with equalityMatrix := ⟨_, rfl, wk, ?_⟩, equalityRhs := ?_ }⟩
  · rw [RowMatrix.rows_append, rk, List.map_append, List.map_fst_zip (Nat.le_of_eq length)]
  · rw [List.map_append, List.map_snd_zip (Nat.le_of_eq length.symm)]

/-- Rows without lower bounds are piled in one go. -/
theorem pileUnilateral_ok (h : s.Presents n f) {m : RowMatrix α} {rows : List (BoundedRow α)}
    (width : m.width = n) (coefficients : m.rows = rows.map BoundedRow.coefficients)
    (unbounded : ∀ r ∈ rows, r.lower = none) :
    ∃ s', s.pileUnilateral ⟨.matrix m, .vector (rows.filterMap BoundedRow.upper)⟩ = .ok s' ∧
      s'.Presents n { f with rows := f.rows ++ rows } := by
  obtain ⟨k, hk, wk, rk⟩ := h.rowMatrix
  have none : rows.filterMap BoundedRow.lower = [] := List.filterMap_eq_nil_iff.2 unbounded
  unfold pileUnilateral
  rw [hk, h.rowUpper, Tensor.pile_matrix (wk.trans width.symm), ok_bind, Tensor.pile_vector,
    ok_bind]
  refine ⟨_, rfl, { h with rowMatrix := ⟨_, rfl, wk, ?_⟩, rowLower := ?_, rowUpper := ?_ }⟩
  · rw [RowMatrix.rows_append, rk, coefficients, List.map_append]
  · rw [h.rowLower, List.filterMap_append, none, List.append_nil]
  · rw [List.filterMap_append]

theorem pileBilateral_ok (h : s.Presents n f) {m : RowMatrix α} {rows : List (BoundedRow α)}
    (width : m.width = n) (coefficients : m.rows = rows.map BoundedRow.coefficients) :
    ∃ s', s.pileBilateral ⟨.matrix m, .vector (rows.filterMap BoundedRow.lower),
        .vector (rows.filterMap BoundedRow.upper)⟩ = .ok s' ∧
      s'.Presents n { f with rows := f.rows ++ rows } := by
  obtain ⟨k, hk, wk, rk⟩ := h.rowMatrix
  unfold pileBilateral
  rw [hk, h.rowUpper, h.rowLower, Tensor.pile_matrix (wk.trans width.symm), ok_bind,
    Tensor.pile_vector, ok_bind, Tensor.pile_vector, ok_bind]
  refine ⟨_, rfl, { h with rowMatrix := ⟨_, rfl, wk, ?_⟩, rowLower := ?_, rowUpper := ?_ }⟩
  · rw [RowMatrix.rows_append, rk, coefficients, List.map_append]
  · rw [List.filterMap_append]
  · rw [List.filterMap_append]

/-! ### Equalities -/

theorem hasEqualities_eq_ok {k : RowMatrix α} {v : List α} (matrix : s.equalityMatrix = .matrix k)
    (rightHandSide : s.equalityRhs = .vector v) (one : v.length = k.height) :
    s.hasEqualities = .ok (decide (k.height ≠ 0)) := by
  unfold hasEqualities
  rw [matrix, rightHandSide, Tensor.leading_matrix, ok_bind, Tensor.size_vector, one, Bool.or_self]
  rfl

/-- Equations are piled as such, as rows with two equal bounds, or as rows and
flipped rows. -/
theorem pileByPolicy_ok [Neg α] [BoundScalar α] (policy : Policy) (h : s.Presents n f)
    {k : RowMatrix α} {v : List α} (width : k.width = n) (length : v.length = k.height) :
    ∃ s', (if !policy.foldsEqualities then s.pileEqualities (.matrix k) (.vector v)
        else if policy.bilateral then
        s.pileBilateral (Sidedness.equalityToBilateral (.matrix k) (.vector v))
        else Sidedness.equalityToUnilateral (.matrix k) (.vector v) >>= s.pileUnilateral) = .ok s' ∧
      s'.Presents n { f with
        equations := f.equations ++ Faces.kept policy (k.rows.zip v)
        rows := f.rows ++ Faces.folded policy (k.rows.zip v) } := by
  have rowLength : k.rows.length = v.length := by rw [RowMatrix.length_rows, length]
  have coefficients :
      ((k.rows.zip v).map BoundedRow.ofEquation).map BoundedRow.coefficients = k.rows := by
    rw [List.map_map]
    exact List.map_fst_zip (Nat.le_of_eq rowLength)
  have bounds : (k.rows.zip v).map (some ∘ Prod.snd) = v.map some := by
    rw [← List.map_map, List.map_snd_zip (Nat.le_of_eq rowLength.symm)]
  have lowers : ((k.rows.zip v).map BoundedRow.ofEquation).map BoundedRow.lower = v.map some := by
    rw [List.map_map, ← bounds]
    rfl
  have uppers : ((k.rows.zip v).map BoundedRow.ofEquation).map BoundedRow.upper = v.map some := by
    rw [List.map_map, ← bounds]
    rfl
  unfold Faces.kept Faces.folded BoundedRow.normalize
  cases policy.foldsEqualities with
  | false =>
    obtain ⟨s', piled, next⟩ := pileEqualities_ok h width length.symm
    exact ⟨s', piled, by simpa using next⟩
  | true =>
    cases policy.bilateral with
    | true =>
      obtain ⟨s', piled, next⟩ :=
        pileBilateral_ok h width (coefficients.symm.trans BoundedRow.map_coefficients_fill.symm)
      rw [BoundedRow.filterMap_lower_fill, BoundedRow.filterMap_upper_fill, lowers, uppers,
        Sidedness.map_getD_some, Sidedness.map_getD_some] at piled
      exact ⟨s', piled, by simpa using next⟩
    | false =>
      obtain ⟨m, widths, rows, flipped⟩ := Sidedness.pile_flip_ok coefficients lowers uppers
      obtain ⟨s', piled, next⟩ :=
        pileUnilateral_ok h (widths.trans width) rows BoundedRow.lower_of_mem
      refine ⟨s', ?_, by simpa using next⟩
      rw [if_neg (by simp), if_neg (by simp), Sidedness.equalityToUnilateral, flipped, ok_bind,
        piled]

theorem mergeEqualities_ok [Neg α] [BoundScalar α] (policy : Policy) (h : s.Presents n f)
    (fits : p.system.EqualitiesFit n) :
    ∃ s', s.mergeEqualities policy n p = .ok s' ∧ s'.Presents n { f with
      equations := f.equations ++ Faces.kept policy p.system.faces.equations
      rows := f.rows ++ Faces.folded policy p.system.faces.equations } := by
  unfold mergeEqualities
  rcases fits with ⟨noRows, noEntries⟩ | ⟨m, shape, shape'⟩
  · have read : p.system.faces.equations = [] := by
      rw [faces, Tensor.rowList_of_leading_zero noRows, List.zip_nil_left]
    have absent : p.system.hasEqualities = .ok false := by
      rw [hasEqualities, noRows, noEntries]
      rfl
    rw [absent, read]
    exact ⟨s, rfl, by simpa [Faces.kept, Faces.folded, BoundedRow.normalize] using h⟩
  · have checked := Part.checkEqualities_eq_ok.2 ⟨m, shape, Tensor.leading_of_shape shape'⟩
    obtain ⟨k, matrix, rfl, width⟩ := Tensor.exists_matrix_of_shape shape
    obtain ⟨v, rightHandSide, length⟩ := Tensor.exists_vector_of_shape shape'
    have rowLength : k.rows.length = v.length := by rw [RowMatrix.length_rows, length]
    have read : p.system.faces.equations = k.rows.zip v := by
      rw [faces, matrix, rightHandSide]
      rfl
    rw [hasEqualities_eq_ok matrix rightHandSide length, ok_bind, checked, ok_bind, matrix,
      rightHandSide, read]
    by_cases empty : k.height = 0
    · have none : k.rows = [] :=
        List.eq_nil_of_length_eq_zero (by rw [RowMatrix.length_rows, empty])
      rw [if_neg (by simp [empty]), none]
      exact ⟨s, rfl, by simpa [Faces.kept, Faces.folded, BoundedRow.normalize] using h⟩
    · rw [if_pos (by simp [empty])]
      exact pileByPolicy_ok policy h width length

/-- Only vectors are piled as right-hand sides or as bounds. -/
theorem rank_of_pileEqualities (h : s.Presents n f) {matrix rightHandSide : Tensor α}
    {s' : LinearSystem α} (piled : s.pileEqualities matrix rightHandSide = .ok s') :
    rightHandSide.rank = 1 := by
  obtain ⟨_, -, piled⟩ := bind_eq_ok.1 piled
  obtain ⟨_, piled, -⟩ := bind_eq_ok.1 piled
  rw [h.equalityRhs] at piled
  exact Tensor.rank_of_pile_vector piled

theorem rank_of_pileBilateral (h : s.Presents n f) {rows : BilateralRows α} {s' : LinearSystem α}
    (piled : s.pileBilateral rows = .ok s') : rows.lower.rank = 1 ∧ rows.upper.rank = 1 := by
  obtain ⟨_, -, piled⟩ := bind_eq_ok.1 piled
  obtain ⟨_, lower, piled⟩ := bind_eq_ok.1 piled
  obtain ⟨_, upper, -⟩ := bind_eq_ok.1 piled
  rw [h.rowLower] at lower
  rw [h.rowUpper] at upper
  exact ⟨Tensor.rank_of_pile_vector lower, Tensor.rank_of_pile_vector upper⟩

theorem rank_of_pileUnilateral (h : s.Presents n f) {rows : UnilateralRows α} {s' : LinearSystem α}
    (piled : s.pileUnilateral rows = .ok s') : rows.upper.rank = 1 := by
  obtain ⟨_, -, piled⟩ := bind_eq_ok.1 piled
  obtain ⟨_, upper, -⟩ := bind_eq_ok.1 piled
  rw [h.rowUpper] at upper
  exact Tensor.rank_of_pile_vector upper

/-- Only equalities that fit are merged. -/
theorem equalitiesFit_of_mergeEqualities [Neg α] {policy : Policy} (h : s.Presents n f)
    {s' : LinearSystem α} (merged : s.mergeEqualities policy n p = .ok s') :
    p.system.EqualitiesFit n := by
  unfold mergeEqualities at merged
  obtain ⟨present, asked, merged⟩ := bind_eq_ok.1 merged
  cases present with
  | false =>
    obtain ⟨rows, leading, answer⟩ := bind_eq_ok.1 asked
    rw [pure_eq_ok] at answer
    simp only [Bool.or_eq_false_iff, decide_eq_false_iff_not, not_not] at answer
    exact .inl ⟨answer.1 ▸ leading, answer.2⟩
  | true =>
    rw [if_pos rfl, then_eq_ok, Part.checkEqualities_eq_ok] at merged
    obtain ⟨⟨m, shape, leading⟩, piled⟩ := merged
    refine .inr ⟨m, shape, Tensor.shape_of_leading ?_ leading⟩
    split at piled
    · exact rank_of_pileEqualities h piled
    · split at piled
      · exact (rank_of_pileBilateral h piled).1
      · obtain ⟨rows, flipped, piled⟩ := bind_eq_ok.1 piled
        rw [← Sidedness.rank_of_pile flipped]
        exact rank_of_pileUnilateral h piled

/-! ### Inequalities -/

/-- Rows that fit are read off their arrays. -/
theorem rows_of_fits {m : Nat} (shape : s.rowMatrix.shape = [m, n])
    (fitsLower : s.rowLower.size = 0 ∨ s.rowLower.shape = [m])
    (fitsUpper : s.rowUpper.size = 0 ∨ s.rowUpper.shape = [m]) :
    ∃ k, s.rowMatrix = .matrix k ∧ k.height = m ∧ k.width = n ∧
    s.faces.rows.map BoundedRow.coefficients = k.rows ∧
      s.faces.rows.map BoundedRow.lower = s.rowLower.boundList m ∧
      s.faces.rows.map BoundedRow.upper = s.rowUpper.boundList m := by
  obtain ⟨k, matrix, rfl, width⟩ := Tensor.exists_matrix_of_shape shape
  have rowLength : k.rows.length = k.height := k.length_rows
  have read :
      s.faces.rows = BoundedRow.zip k.rows (s.rowLower.boundList k.height)
        (s.rowUpper.boundList k.height) := by
    rw [faces, matrix, Tensor.rowList, rowLength]
  rw [read]
  exact ⟨k, matrix, rfl, width,
    BoundedRow.map_zip (rowLength.trans (Tensor.length_boundList fitsLower).symm)
    (rowLength.trans (Tensor.length_boundList fitsUpper).symm)⟩

theorem mergeInequalities_ok [Neg α] [BoundScalar α] (policy : Policy) (h : s.Presents n f)
    (fits : p.system.InequalitiesFit n) :
    ∃ s', s.mergeInequalities policy n p = .ok s' ∧
      s'.Presents n { f with
        rows := f.rows ++ BoundedRow.normalize policy p.system.faces.rows } := by
  unfold mergeInequalities
  rcases fits with ⟨noRows, noLower, noUpper⟩ | ⟨m, nonempty, shape, fitsLower, fitsUpper, bounded⟩
  · have read : p.system.faces.rows = [] := by
      rw [faces, Tensor.rowList_of_leading_zero noRows]
      rfl
    have absent : p.system.hasInequalities = .ok false := by
      rw [hasInequalities, noRows, noLower, noUpper]
      rfl
    rw [absent, read]
    exact ⟨s, rfl, by simpa [BoundedRow.normalize] using h⟩
  · have checked : p.checkColumns n .inequality p.system.rowMatrix = .ok () :=
      Part.checkColumns_eq_ok.2 ⟨m, shape⟩
    obtain ⟨k, matrix, rfl, width, coefficients, lowers, uppers⟩ :=
      rows_of_fits shape fitsLower fitsUpper
    have present : p.system.hasInequalities = .ok true := by
      rw [hasInequalities, matrix, Tensor.leading_matrix, ok_bind]
      simp [nonempty, pure_eq_ok]
    rw [present, ok_bind, if_pos rfl, checked, matrix, Tensor.leading_matrix, ok_bind,
      if_neg nonempty, ok_bind]
    unfold BoundedRow.normalize
    cases policy.bilateral with
    | true =>
      rw [if_pos rfl, if_pos rfl, Sidedness.toBilateral_ok fitsLower fitsUpper bounded, ok_bind,
        ← lowers, ← uppers, ← BoundedRow.filterMap_lower_fill, ← BoundedRow.filterMap_upper_fill]
      exact pileBilateral_ok h width (coefficients.symm.trans BoundedRow.map_coefficients_fill.symm)
    | false =>
      obtain ⟨m, widths, rows, unilateral⟩ :=
        Sidedness.toUnilateral_ok fitsLower fitsUpper bounded coefficients lowers uppers
      rw [if_neg Bool.false_ne_true, if_neg Bool.false_ne_true, unilateral, ok_bind]
      exact pileUnilateral_ok h (widths.trans width) rows BoundedRow.lower_of_mem

/-- Only inequality rows that fit are merged. -/
theorem inequalitiesFit_of_mergeInequalities [Neg α] [BoundScalar α] {policy : Policy}
    (h : s.Presents n f) {s' : LinearSystem α} (merged : s.mergeInequalities policy n p = .ok s') :
    p.system.InequalitiesFit n := by
  unfold mergeInequalities at merged
  obtain ⟨present, asked, merged⟩ := bind_eq_ok.1 merged
  cases present with
  | false =>
    obtain ⟨rows, leading, answer⟩ := bind_eq_ok.1 asked
    rw [pure_eq_ok] at answer
    simp only [Bool.or_eq_false_iff, decide_eq_false_iff_not, not_not] at answer
    exact .inl ⟨answer.1.1 ▸ leading, answer.1.2, answer.2⟩
  | true =>
    rw [if_pos rfl] at merged
    obtain ⟨m, leading, merged⟩ := bind_eq_ok.1 merged
    have nonempty : m ≠ 0 := by
      rintro rfl
      cases merged
    rw [if_neg nonempty, then_eq_ok, Part.checkColumns_eq_ok] at merged
    obtain ⟨⟨rows, shape⟩, merged⟩ := merged
    cases (Tensor.leading_of_shape shape).symm.trans leading
    refine .inr ⟨m, nonempty, shape, ?_⟩
    split at merged
    · obtain ⟨bilateral, checked, piled⟩ := bind_eq_ok.1 merged
      exact Sidedness.fits_of_toBilateral leading checked (rank_of_pileBilateral h piled)
    · obtain ⟨unilateral, checked, piled⟩ := bind_eq_ok.1 merged
      exact Sidedness.fits_of_toUnilateral leading checked (rank_of_pileUnilateral h piled)

/-! ### Parts -/

/-- A merge starts with nothing said, over a number of variables. -/
theorem presents_free {size : Int} (h : free size = .ok s) :
    ∃ n : Nat, size = n ∧ s.Presents n Faces.free := by
  obtain ⟨matrix, made, h⟩ := bind_eq_ok.1 h
  rw [pure_eq_ok] at h
  unfold RowMatrix.withoutRows at made
  split at made
  · cases made
  · next refused =>
    cases made
    simp only [Bool.or_eq_true, decide_eq_true_eq, not_or, Int.not_lt] at refused
    refine ⟨size.toNat, (Int.toNat_of_nonneg refused.1).symm, ?_⟩
    rw [← h]
    exact ⟨rfl, rfl, by simp [Faces.free], ⟨_, rfl, rfl, rfl⟩, rfl, ⟨_, rfl, rfl, rfl⟩, rfl, rfl⟩

/-- Merged arrays say what they list. -/
theorem Presents.faces_eq {policy : Policy} (h : s.Presents n f) (normal : f.Normal policy) :
    s.faces = f := by
  obtain ⟨m, matrix, -, left⟩ := h.equalityMatrix
  obtain ⟨k, rowMatrix, -, coefficients⟩ := h.rowMatrix
  have count : k.rows.length = f.rows.length := by rw [coefficients, List.length_map]
  have lower : s.rowLower.boundList f.rows.length = f.rows.map BoundedRow.lower := by
    rw [h.rowLower]
    exact Tensor.boundList_filterMap normal.lowers
  have upper : s.rowUpper.boundList f.rows.length = f.rows.map BoundedRow.upper := by
    rw [h.rowUpper]
    exact Tensor.boundList_filterMap (.inl normal.upper)
  have box : (if s.hasBox then some (s.boxLower.entries, s.boxUpper.entries) else none) =
      f.box := by
    unfold hasBox
    rw [h.boxLower, h.boxUpper]
    cases box : f.box with
    | none => simp
    | some b =>
      obtain ⟨nonempty, length, -⟩ := h.boxLength b box
      simp [Tensor.entries, length, nonempty]
  unfold faces
  rw [box, matrix, rowMatrix, Tensor.rowList, Tensor.rowList, count, lower, upper, left,
    coefficients, h.equalityRhs, BoundedRow.zip_map, Tensor.entries, ← List.zip_of_prod rfl rfl]

/-- Each merged row has an upper bound. -/
theorem Presents.length_rowUpper {policy : Policy} (h : s.Presents n f) (normal : f.Normal policy) :
    s.rowUpper.entries.length = s.rowMatrix.rowList.length := by
  obtain ⟨k, rowMatrix, -, coefficients⟩ := h.rowMatrix
  rw [h.rowUpper, rowMatrix, Tensor.rowList, Tensor.entries, coefficients, List.length_map,
    List.filterMap_length_eq_length.2 normal.upper]

/-- Merged arrays fit together. -/
theorem Presents.fits {policy : Policy} (h : s.Presents n f) (normal : f.Normal policy) :
    s.Fits n := by
  obtain ⟨m, matrix, width, left⟩ := h.equalityMatrix
  obtain ⟨k, rowMatrix, rowWidth, coefficients⟩ := h.rowMatrix
  have height : m.height = f.equations.length := by
    rw [← RowMatrix.length_rows, left, List.length_map]
  have rowHeight : k.height = f.rows.length := by
    rw [← RowMatrix.length_rows, coefficients, List.length_map]
  have upper : (f.rows.filterMap BoundedRow.upper).length = f.rows.length :=
    List.filterMap_length_eq_length.2 normal.upper
  refine ⟨?_, .inr ⟨f.equations.length, ?_, ?_⟩, ?_⟩
  · cases box : f.box with
    | none => exact .inl (by simp [h.boxLower, h.boxUpper, box])
    | some b =>
      obtain ⟨-, lower, upper⟩ := h.boxLength b box
      exact .inr (by simp [h.boxLower, h.boxUpper, box, Tensor.shape, lower, upper])
  · rw [matrix, Tensor.shape, height, width]
  · rw [h.equalityRhs, Tensor.shape, List.length_map]
  · by_cases empty : f.rows = []
    · refine .inl ⟨?_, ?_, ?_⟩
      · rw [rowMatrix, Tensor.leading_matrix, rowHeight, empty, List.length_nil]
      · rw [h.rowLower, empty, List.filterMap_nil, Tensor.size_vector, List.length_nil]
      · rw [h.rowUpper, empty, List.filterMap_nil, Tensor.size_vector, List.length_nil]
    · have nonempty : f.rows.length ≠ 0 := fun zero => empty (List.eq_nil_of_length_eq_zero zero)
      refine .inr ⟨f.rows.length, nonempty, ?_, ?_, ?_, ?_⟩
      · rw [rowMatrix, Tensor.shape, rowHeight, rowWidth]
      · rw [h.rowLower, Tensor.size_vector, Tensor.shape]
        rcases normal.lowers with present | missing
        · exact .inr (by rw [List.filterMap_length_eq_length.2 present])
        · exact .inl (by rw [List.filterMap_eq_nil_iff.2 missing, List.length_nil])
      · rw [h.rowUpper, Tensor.shape, upper]
        exact .inr rfl
      · rw [h.rowUpper, Tensor.size_vector, upper]
        exact fun missing => nonempty missing.2

variable [Zero α] [Neg α] [BoundScalar α] {policy : Policy}

/-- A part that fits is added in the form of the policy. -/
theorem mergePart_ok (policy : Policy) (h : s.Presents n f) (fits : p.system.Fits n) :
    ∃ s', s.mergePart policy n p = .ok s' ∧
    s'.Presents n (f.add (p.system.faces.normalize policy)) := by
  obtain ⟨s₁, box, h₁⟩ := mergeBox_ok h fits.box
  obtain ⟨s₂, equalities, h₂⟩ := mergeEqualities_ok policy h₁ fits.equalities
  obtain ⟨s₃, inequalities, h₃⟩ := mergeInequalities_ok policy h₂ fits.inequalities
  refine ⟨s₃, ?_, ?_⟩
  · rw [mergePart, box, ok_bind, equalities, ok_bind, inequalities]
  · rw [List.append_assoc] at h₃
    exact h₃

/-- Only parts that fit are merged. -/
theorem fits_of_mergePart (h : s.Presents n f) {s' : LinearSystem α}
    (merged : s.mergePart policy n p = .ok s') :
    p.system.Fits n := by
  obtain ⟨s₁, box, merged⟩ := bind_eq_ok.1 merged
  obtain ⟨s₂, equalities, inequalities⟩ := bind_eq_ok.1 merged
  have boxFits := boxFits_of_mergeBox box
  obtain ⟨_, box', h₁⟩ := mergeBox_ok h boxFits
  cases box.symm.trans box'
  have equalitiesFit := equalitiesFit_of_mergeEqualities h₁ equalities
  obtain ⟨_, equalities', h₂⟩ := mergeEqualities_ok policy h₁ equalitiesFit
  cases equalities.symm.trans equalities'
  exact ⟨boxFits, equalitiesFit, inequalitiesFit_of_mergeInequalities h₂ inequalities⟩

/-- Merging parts one after another adds each of them, and all of them fit. -/
theorem presents_of_foldlM {parts : List (Part α)} (h : s.Presents n f) {s' : LinearSystem α}
    (merged : parts.foldlM (mergePart policy n) s = .ok s') :
    (∀ p ∈ parts, p.system.Fits n) ∧
      s'.Presents n (parts.foldl (fun f p => f.add (p.system.faces.normalize policy)) f) := by
  induction parts generalizing s f with
  | nil =>
    cases merged
    exact ⟨by simp, h⟩
  | cons p parts ih =>
    rw [List.foldlM_cons] at merged
    obtain ⟨t, step, merged⟩ := bind_eq_ok.1 merged
    have fits := fits_of_mergePart h step
    obtain ⟨t', step', next⟩ := mergePart_ok policy h fits
    cases step.symm.trans step'
    obtain ⟨others, presents⟩ := ih next merged
    exact ⟨List.forall_mem_cons.2 ⟨fits, others⟩, presents⟩

/-- What a run over all parts lists, and of which parts. -/
theorem presents_of_mergeParts {size : Int} {parts : List (Part α)}
    (merged : mergeParts policy size parts = .ok s) :
    ∃ n : Nat, size = n ∧ (∀ p ∈ parts, p.system.Fits n) ∧
      s.Presents n (Faces.merge policy (parts.map (·.system.faces))) := by
  obtain ⟨start, free, merged⟩ := bind_eq_ok.1 merged
  obtain ⟨n, rfl, empty⟩ := presents_free free
  obtain ⟨fits, presents⟩ := presents_of_foldlM empty merged
  refine ⟨n, rfl, fits, ?_⟩
  rw [Faces.merge, List.foldl_map]
  exact presents

/-- What a merge lists, and of which parts. -/
theorem presents_of_merge {name : String} {size : Int} {parts : List (Part α)}
    (merged : merge policy name size parts = .ok s) :
    ∃ n : Nat, size = n ∧ (∀ p ∈ parts, p.system.Fits n) ∧
      s.Presents n (Faces.merge policy (parts.map (·.system.faces))) := by
  obtain ⟨t, merged, rest⟩ := bind_eq_ok.1 merged
  obtain ⟨-, -, last⟩ := bind_eq_ok.1 rest
  cases last
  exact presents_of_mergeParts merged

end LinearSystem

end ControlHierarchy
