import ControlHierarchy.Proofs.Constraint.Faces
import ControlHierarchy.Proofs.Tensor.Shape

/-!
# The forms of rows

What the normal forms of inequality rows make of their arrays, read row by row:
in the bilateral form the missing bounds are filled, in the unilateral form the
rows with upper bounds are followed by the flipped rows with lower bounds.
-/

namespace ControlHierarchy

variable {α : Type}

namespace Tensor

theorem boundList_vector (v : List α) : (vector v).boundList v.length = v.map some := by
  unfold boundList
  split
  · next empty =>
    rw [size_vector] at empty
    rw [List.eq_nil_of_length_eq_zero empty]
    rfl
  · rfl

theorem length_boundList {t : Tensor α} {m : Nat} (h : t.size = 0 ∨ t.shape = [m]) :
    (t.boundList m).length = m := by
  rcases h with missing | shape
  · rw [boundList, if_pos missing, List.length_replicate]
  · obtain ⟨v, rfl, rfl⟩ := exists_vector_of_shape shape
    rw [boundList_vector, List.length_map]

/-- A bound is missing, or it is a vector with one entry for each row. -/
theorem bound_cases {t : Tensor α} {m : Nat} (h : t.size = 0 ∨ t.shape = [m]) :
    (t.size = 0 ∧ t.boundList m = List.replicate m none) ∨
      (t.size ≠ 0 ∧ ∃ v, t = .vector v ∧ v.length = m ∧ t.boundList m = v.map some) := by
  by_cases missing : t.size = 0
  · exact .inl ⟨missing, if_pos missing⟩
  · obtain ⟨v, rfl, rfl⟩ := exists_vector_of_shape (h.resolve_left missing)
    exact .inr ⟨missing, v, rfl, rfl, boundList_vector v⟩

/-- The bounds of rows that all have one, or that all have none, can be read off
their list. -/
theorem boundList_filterMap {rows : List (BoundedRow α)} {bound : BoundedRow α → Option α}
    (h : (∀ r ∈ rows, (bound r).isSome) ∨ ∀ r ∈ rows, bound r = none) :
    (vector (rows.filterMap bound)).boundList rows.length = rows.map bound := by
  rcases h with present | missing
  · have list : (rows.filterMap bound).map some = rows.map bound := by
      rw [List.map_filterMap, ← List.filterMap_eq_map]
      refine List.filterMap_congr fun r hr => ?_
      obtain ⟨a, ha⟩ := Option.isSome_iff_exists.1 (present r hr)
      simp [ha]
    have count : (rows.filterMap bound).length = rows.length := by
      rw [← List.length_map (f := some), list, List.length_map]
    rw [← count, boundList_vector, list]
  · rw [boundList, if_pos (by simp [List.filterMap_eq_nil_iff.2 missing]),
      List.map_congr_left missing, List.map_const']

theorem rowList_of_leading_zero {t : Tensor α} (h : t.leading = .ok 0) : t.rowList = [] := by
  cases t with
  | matrix m =>
    rw [leading_matrix, Except.ok.injEq] at h
    exact List.eq_nil_of_length_eq_zero (by rw [rowList, RowMatrix.length_rows, h])
  | _ => rfl

end Tensor

namespace Sidedness

variable {k : RowMatrix α} {matrix lower upper : Tensor α} {m : Nat}

theorem checkBound_eq_ok (side : Side) {bound : Tensor α} (rows : matrix.leading = .ok m) :
    checkBound matrix side bound = .ok () ↔ bound.size = 0 ∨ bound.leading = .ok m := by
  unfold checkBound
  by_cases missing : bound.size = 0
  · simp [missing, pure_eq_ok]
  · rw [if_pos missing, rows]
    cases leading : bound.leading with
    | error e => simp [missing]
    | ok entries =>
      rw [ok_bind, ok_bind, throw_unless]
      simp [missing, pure_eq_ok]

theorem checkBounds_eq_ok (rows : matrix.leading = .ok m) :
    checkBounds matrix lower upper = .ok () ↔ ¬(lower.size = 0 ∧ upper.size = 0) ∧
      (lower.size = 0 ∨ lower.leading = .ok m) ∧ (upper.size = 0 ∨ upper.leading = .ok m) := by
  unfold checkBounds
  by_cases missing : lower.size = 0 ∧ upper.size = 0
  · simp [missing, rows, throw, throwThe, MonadExceptOf.throw]
  · rw [if_neg (by simpa using missing), ← checkBound_eq_ok .lower rows,
      ← checkBound_eq_ok .upper rows, then_eq_ok]
    simp [missing]

/-- Bounds that fit, not both of them missing, pass the check of the bounds. -/
theorem checkBounds_ok (hl : lower.size = 0 ∨ lower.shape = [k.height])
    (hu : upper.size = 0 ∨ upper.shape = [k.height])
    (bounded : ¬(lower.size = 0 ∧ upper.size = 0)) :
    checkBounds (.matrix k) lower upper = .ok () := by
  rw [checkBounds_eq_ok (Tensor.leading_matrix k)]
  exact ⟨bounded, hl.imp_right Tensor.leading_of_shape, hu.imp_right Tensor.leading_of_shape⟩

theorem map_getD_some (v : List α) (a : α) : (v.map some).map (·.getD a) = v := by
  rw [List.map_map]
  exact List.map_id v

/-- Bounds that fit, not both of them missing, are brought into bilateral form. -/
theorem toBilateral_ok [BoundScalar α] (hl : lower.size = 0 ∨ lower.shape = [k.height])
    (hu : upper.size = 0 ∨ upper.shape = [k.height])
    (bounded : ¬(lower.size = 0 ∧ upper.size = 0)) :
    toBilateral (.matrix k) lower upper = .ok ⟨.matrix k,
      .vector ((lower.boundList k.height).map (·.getD BoundScalar.unboundedBelow)),
      .vector ((upper.boundList k.height).map (·.getD BoundScalar.unboundedAbove))⟩ := by
  unfold toBilateral
  rw [checkBounds_ok hl hu bounded, ok_bind]
  rcases Tensor.bound_cases hl with ⟨noLower, lowers⟩ | ⟨hasLower, l, rfl, -, lowers⟩
  · rcases Tensor.bound_cases hu with ⟨noUpper, -⟩ | ⟨hasUpper, u, rfl, -, uppers⟩
    · exact absurd ⟨noLower, noUpper⟩ bounded
    · rw [if_neg hasUpper, if_pos noLower, lowers, uppers, List.map_replicate, map_getD_some]
      rfl
  · rcases Tensor.bound_cases hu with ⟨noUpper, uppers⟩ | ⟨hasUpper, u, rfl, -, uppers⟩
    · rw [if_pos noUpper, lowers, uppers, List.map_replicate, map_getD_some]
      rfl
    · rw [if_neg hasUpper, if_neg hasLower, lowers, uppers, map_getD_some, map_getD_some]
      rfl

theorem pile_ok {m k : RowMatrix α} (width : m.width = k.width) {u v : List α} :
    UnilateralRows.pile ⟨.matrix m, .vector u⟩ ⟨.matrix k, .vector v⟩ =
      .ok ⟨.matrix (m.append k width), .vector (u ++ v)⟩ := by
  unfold UnilateralRows.pile
  rw [Tensor.pile_matrix width, ok_bind, Tensor.pile_vector]
  rfl

theorem rank_of_pile {top bottom rows : UnilateralRows α}
    (h : UnilateralRows.pile top bottom = .ok rows) :
    rows.upper.rank = top.upper.rank := by
  obtain ⟨_, -, h⟩ := bind_eq_ok.1 h
  obtain ⟨upper, piled, h⟩ := bind_eq_ok.1 h
  cases h
  exact Tensor.rank_pile piled

/-- Of rows that all have a bound none is left out. -/
theorem filterMap_of_present {rows : List (BoundedRow α)} {bound : BoundedRow α → Option α}
    {v : List α} (h : rows.map bound = v.map some) :
    rows.filterMap bound = v ∧ ∀ r ∈ rows, (bound r).isSome := by
  constructor
  · calc rows.filterMap bound = (rows.map bound).filterMap id := by rw [List.filterMap_map]; rfl
      _ = v := by rw [h, List.filterMap_map]; exact List.filterMap_some
  · intro r hr
    have member : bound r ∈ v.map some := h ▸ List.mem_map_of_mem hr
    obtain ⟨a, -, ha⟩ := List.mem_map.1 member
    rw [← ha]
    rfl

theorem eq_none_of_missing {rows : List (BoundedRow α)} {bound : BoundedRow α → Option α} {m : Nat}
    (h : rows.map bound = List.replicate m none) : ∀ r ∈ rows, bound r = none := by
  intro r hr
  exact List.eq_of_mem_replicate (h ▸ List.mem_map_of_mem hr)

/-- Rows with both bounds appear twice, the second time flipped. -/
theorem pile_flip_ok [Neg α] {l u : List α} {rows : List (BoundedRow α)}
    (coefficients : rows.map BoundedRow.coefficients = k.rows)
    (lowers : rows.map BoundedRow.lower = l.map some)
    (uppers : rows.map BoundedRow.upper = u.map some) :
    ∃ m, m.width = k.width ∧
      m.rows = (rows.filterMap BoundedRow.below ++ rows.filterMap BoundedRow.above).map
      BoundedRow.coefficients ∧
      UnilateralRows.pile ⟨.matrix k, .vector u⟩ (flip (.matrix k) (.vector l)) = .ok ⟨.matrix m,
        .vector ((rows.filterMap BoundedRow.below ++ rows.filterMap BoundedRow.above).filterMap
          BoundedRow.upper)⟩ := by
  obtain ⟨lower, boundedBelow⟩ := filterMap_of_present lowers
  obtain ⟨upper, boundedAbove⟩ := filterMap_of_present uppers
  have width : k.width = (k.map (-·)).width := (RowMatrix.width_map _ k).symm
  refine ⟨k.append (k.map (-·)) width, rfl, ?_, ?_⟩
  · rw [List.map_append, BoundedRow.map_coefficients_below boundedAbove,
      BoundedRow.map_coefficients_above boundedBelow, coefficients, RowMatrix.rows_append,
      RowMatrix.rows_map]
  · rw [List.filterMap_append, BoundedRow.filterMap_upper_below, BoundedRow.filterMap_upper_above,
      lower, upper]
    exact pile_ok width

/-- Bounds that fit, not both of them missing, are brought into unilateral form. -/
theorem toUnilateral_ok [Neg α] (hl : lower.size = 0 ∨ lower.shape = [k.height])
    (hu : upper.size = 0 ∨ upper.shape = [k.height]) (bounded : ¬(lower.size = 0 ∧ upper.size = 0))
    {rows : List (BoundedRow α)} (coefficients : rows.map BoundedRow.coefficients = k.rows)
    (lowers : rows.map BoundedRow.lower = lower.boundList k.height)
    (uppers : rows.map BoundedRow.upper = upper.boundList k.height) :
    ∃ m, m.width = k.width ∧
      m.rows = (rows.filterMap BoundedRow.below ++ rows.filterMap BoundedRow.above).map
      BoundedRow.coefficients ∧
      toUnilateral (.matrix k) lower upper = .ok ⟨.matrix m,
        .vector ((rows.filterMap BoundedRow.below ++ rows.filterMap BoundedRow.above).filterMap
          BoundedRow.upper)⟩ := by
  unfold toUnilateral
  rw [checkBounds_ok hl hu bounded, ok_bind]
  rcases Tensor.bound_cases hl with ⟨noLower, missing⟩ | ⟨hasLower, l, rfl, -, lowerEntries⟩
  · rcases Tensor.bound_cases hu with ⟨noUpper, -⟩ | ⟨hasUpper, u, rfl, -, present⟩
    · exact absurd ⟨noLower, noUpper⟩ bounded
    · have unbounded := eq_none_of_missing (lowers.trans missing)
      obtain ⟨upper, bounded⟩ := filterMap_of_present (uppers.trans present)
      rw [if_neg hasUpper, if_pos noLower, BoundedRow.filterMap_above_eq_nil unbounded,
        List.append_nil, BoundedRow.filterMap_upper_below,
        BoundedRow.map_coefficients_below bounded, coefficients, upper]
      exact ⟨k, rfl, rfl, rfl⟩
  · obtain ⟨lower, boundedBelow⟩ := filterMap_of_present (lowers.trans lowerEntries)
    rcases Tensor.bound_cases hu with ⟨noUpper, missing⟩ | ⟨hasUpper, u, rfl, -, present⟩
    · have unbounded := eq_none_of_missing (uppers.trans missing)
      rw [if_pos noUpper, BoundedRow.filterMap_below_eq_nil unbounded, List.nil_append,
        BoundedRow.filterMap_upper_above, BoundedRow.map_coefficients_above boundedBelow,
        coefficients, lower, ← RowMatrix.rows_map]
      exact ⟨k.map (-·), rfl, rfl, rfl⟩
    · rw [if_neg hasUpper, if_neg hasLower]
      exact pile_flip_ok coefficients (lowers.trans lowerEntries) (uppers.trans present)

/-- A bound that passed its check fits if it is a vector. -/
theorem fits_of_rank {bound : Tensor α} (checked : bound.size = 0 ∨ bound.leading = .ok m)
    (vector : bound.size = 0 ∨ bound.rank = 1) : bound.size = 0 ∨ bound.shape = [m] := by
  rcases checked with missing | leading
  · exact .inl missing
  · exact vector.imp_right fun rank => Tensor.shape_of_leading rank leading

/-- Rows whose bilateral form has vectors as bounds had bounds that fit. -/
theorem fits_of_toBilateral [BoundScalar α] {rows : BilateralRows α}
    (leading : matrix.leading = .ok m) (h : toBilateral matrix lower upper = .ok rows)
    (vectors : rows.lower.rank = 1 ∧ rows.upper.rank = 1) :
    (lower.size = 0 ∨ lower.shape = [m]) ∧ (upper.size = 0 ∨ upper.shape = [m]) ∧
      ¬(lower.size = 0 ∧ upper.size = 0) := by
  unfold toBilateral at h
  rw [then_eq_ok, checkBounds_eq_ok leading, leading, ok_bind, ok_bind] at h
  obtain ⟨⟨bounded, checkedLower, checkedUpper⟩, h⟩ := h
  split at h
  · next noUpper =>
    cases h
    exact ⟨fits_of_rank checkedLower (.inr vectors.1), .inl noUpper, bounded⟩
  · split at h
    · next noLower =>
      cases h
      exact ⟨.inl noLower, fits_of_rank checkedUpper (.inr vectors.2), bounded⟩
    · cases h
      exact ⟨fits_of_rank checkedLower (.inr vectors.1), fits_of_rank checkedUpper (.inr vectors.2),
        bounded⟩

/-- Rows whose unilateral form has a vector as bound had bounds that fit. -/
theorem fits_of_toUnilateral [Neg α] {rows : UnilateralRows α} (leading : matrix.leading = .ok m)
    (h : toUnilateral matrix lower upper = .ok rows) (vector : rows.upper.rank = 1) :
    (lower.size = 0 ∨ lower.shape = [m]) ∧ (upper.size = 0 ∨ upper.shape = [m]) ∧
      ¬(lower.size = 0 ∧ upper.size = 0) := by
  unfold toUnilateral at h
  rw [then_eq_ok, checkBounds_eq_ok leading] at h
  obtain ⟨⟨bounded, checkedLower, checkedUpper⟩, h⟩ := h
  have flipped : (flip matrix lower).upper.rank = lower.rank :=
    congrArg List.length (Tensor.shape_map _ lower)
  split at h
  · next noUpper =>
    cases h
    exact ⟨fits_of_rank checkedLower (.inr (flipped ▸ vector)), .inl noUpper, bounded⟩
  · split at h
    · next noLower =>
      cases h
      exact ⟨.inl noLower, fits_of_rank checkedUpper (.inr vector), bounded⟩
    · have rank : upper.rank = 1 := (rank_of_pile h).symm.trans vector
      have same : lower.rank = 1 := by
        obtain ⟨_, -, h⟩ := bind_eq_ok.1 h
        obtain ⟨_, piled, -⟩ := bind_eq_ok.1 h
        rw [← flipped, ← Tensor.rank_eq_of_pile piled]
        exact rank
      exact ⟨fits_of_rank checkedLower (.inr same), fits_of_rank checkedUpper (.inr rank), bounded⟩

end Sidedness

end ControlHierarchy
