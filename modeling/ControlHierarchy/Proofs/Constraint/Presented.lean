import ControlHierarchy.Proofs.Constraint.Merging

/-!
# Which merges are accepted

Rows and their right-hand sides stand in two arrays, one below the other in the
same order. `Tabulates` says which pairs they are, so that a pair cannot be torn
apart, and decides the arrays (`Tabulates.unique`). In the same way, what merged
arrays list decides the arrays (`Presents.unique`), and what they list passes
the check of the whole (`Presents.checkMerged_ok`). So a merge is accepted just
when every part fits, and its arrays are the ones that list what the parts say
(`merge_eq_ok_iff`).
-/

namespace ControlHierarchy

variable {α : Type} {n : Nat}

/-- A matrix over `n` variables and a vector list these rows with their right-hand
sides, in order. -/
structure Tabulates (n : Nat) (pairs : List (List α × α)) (matrix sides : Tensor α) : Prop where
  matrix : ∃ m, matrix = .matrix m ∧ m.width = n ∧ m.rows = pairs.map Prod.fst
  sides : sides = .vector (pairs.map Prod.snd)

section Tabulates

variable {pairs : List (List α × α)} {matrix matrix' sides sides' : Tensor α}

/-- The matrix over `n` variables with the given rows is the only one. -/
theorem matrix_unique {rows : List (List α)}
    (h : ∃ m, matrix = .matrix m ∧ m.width = n ∧ m.rows = rows)
    (h' : ∃ m, matrix' = .matrix m ∧ m.width = n ∧ m.rows = rows) : matrix = matrix' := by
  obtain ⟨m, rfl, width, same⟩ := h
  obtain ⟨m', rfl, width', same'⟩ := h'
  rw [RowMatrix.ext (width.trans width'.symm) (same.trans same'.symm)]

theorem Tabulates.unique (h : Tabulates n pairs matrix sides)
    (h' : Tabulates n pairs matrix' sides') : matrix = matrix' ∧ sides = sides' :=
  ⟨matrix_unique h.matrix h'.matrix, h.sides.trans h'.sides.symm⟩

theorem Tabulates.eq_zip {m : RowMatrix α} {v : List α}
    (h : Tabulates n pairs (.matrix m) (.vector v)) :
    n = m.width ∧ pairs = m.rows.zip v := by
  obtain ⟨m', same, width, rows⟩ := h.matrix
  cases same
  cases h.sides
  refine ⟨width.symm, ?_⟩
  rw [rows, List.zip_map', List.map_id'' fun _ => rfl]

end Tabulates

/-- A row with its upper bound. -/
def BoundedRow.withSide (r : BoundedRow α) : Option (List α × α) := r.upper.map (r.coefficients, ·)

/-- The rows that have an upper bound, paired with it. -/
def Faces.upperRows (f : Faces α) : List (List α × α) := f.rows.filterMap BoundedRow.withSide

/-- The rows that are restricted from above. -/
def Faces.restrictedRows [BoundScalar α] (f : Faces α) : List (List α × α) :=
  f.upperRows.filter (BoundScalar.restricts ·.2)

theorem Faces.map_fst_upperRows {f : Faces α} (bounded : ∀ r ∈ f.rows, r.upper.isSome) :
    f.upperRows.map Prod.fst = f.rows.map BoundedRow.coefficients := by
  rw [upperRows, List.map_filterMap, ← List.filterMap_eq_map]
  refine List.filterMap_congr fun r hr => ?_
  obtain ⟨u, hu⟩ := Option.isSome_iff_exists.1 (bounded r hr)
  simp [BoundedRow.withSide, hu]

theorem Faces.map_snd_upperRows (f : Faces α) :
    f.upperRows.map Prod.snd = f.rows.filterMap BoundedRow.upper := by
  rw [upperRows, List.map_filterMap]
  refine List.filterMap_congr fun r _ => ?_
  simp [BoundedRow.withSide, Function.comp_def]

namespace LinearSystem

variable {s t : LinearSystem α} {f : Faces α}

theorem Presents.tabulates_rows (h : s.Presents n f) (bounded : ∀ r ∈ f.rows, r.upper.isSome) :
    Tabulates n f.upperRows s.rowMatrix s.rowUpper where
  matrix := by
    rw [Faces.map_fst_upperRows bounded]
    exact h.rowMatrix
  sides := by rw [Faces.map_snd_upperRows, h.rowUpper]

theorem Presents.tabulates_equations (h : s.Presents n f) :
    Tabulates n f.equations s.equalityMatrix s.equalityRhs :=
  ⟨h.equalityMatrix, h.equalityRhs⟩

/-- The arrays that list what is said are determined by it. -/
theorem Presents.unique (h : s.Presents n f) (h' : t.Presents n f) : s = t := by
  have equalityMatrix := matrix_unique h.equalityMatrix h'.equalityMatrix
  have rowMatrix := matrix_unique h.rowMatrix h'.rowMatrix
  cases s
  cases t
  cases h.boxLower.trans h'.boxLower.symm
  cases h.boxUpper.trans h'.boxUpper.symm
  cases equalityMatrix
  cases h.equalityRhs.trans h'.equalityRhs.symm
  cases rowMatrix
  cases h.rowLower.trans h'.rowLower.symm
  cases h.rowUpper.trans h'.rowUpper.symm
  rfl

/-! ### The check of the whole -/

theorem checkMergedBox_ok {name : String} {side : Side} {v : List α} (h : v = [] ∨ v.length = n) :
    checkMergedBox name n side (.vector v) = .ok () := by
  unfold checkMergedBox
  rw [if_neg]
  · rfl
  · rcases h with rfl | h <;> simp [*]

theorem misfits_eq_false {pairs : List (List α × α)} {matrix sides : Tensor α}
    (h : Tabulates n pairs matrix sides) : misfits n matrix sides = .ok false := by
  obtain ⟨m, rfl, rfl, rows⟩ := h.matrix
  obtain rfl := h.sides
  have height : m.height = pairs.length := by rw [← RowMatrix.length_rows, rows, List.length_map]
  have entries : (Tensor.vector (pairs.map Prod.snd)).leading = .ok pairs.length := by
    rw [Tensor.leading_of_shape rfl, List.length_map]
  have columns : (Tensor.matrix m).axis 1 = .ok m.width := rfl
  unfold misfits
  rw [Tensor.leading_matrix, ok_bind, entries, ok_bind, if_neg (not_not.2 height), columns, ok_bind]
  simp [pure, Except.pure]

/-- What is listed in the form of the policy passes the check of the whole. -/
theorem Presents.checkMerged_ok {policy : Policy} {name : String} (h : s.Presents n f)
    (normal : f.Normal policy) : s.checkMerged policy name n = .ok () := by
  obtain ⟨k, rowMatrix, -, coefficients⟩ := h.rowMatrix
  have box : ∀ b ∈ f.box, b.1.length = n ∧ b.2.length = n := fun b hb => (h.boxLength b hb).2
  have lowerBox : f.box.elim [] Prod.fst = [] ∨ (f.box.elim [] Prod.fst).length = n := by
    cases same : f.box with
    | none => exact .inl rfl
    | some b => exact .inr (box b same).1
  have upperBox : f.box.elim [] Prod.snd = [] ∨ (f.box.elim [] Prod.snd).length = n := by
    cases same : f.box with
    | none => exact .inl rfl
    | some b => exact .inr (box b same).2
  have count : s.rowMatrix.leading = .ok f.rows.length := by
    rw [rowMatrix, Tensor.leading_matrix, ← RowMatrix.length_rows, coefficients, List.length_map]
  have lowers : s.rowLower.leading = .ok (f.rows.filterMap BoundedRow.lower).length := by
    rw [h.rowLower, Tensor.leading_of_shape rfl]
  unfold checkMerged
  rw [misfits_eq_false h.tabulates_equations, misfits_eq_false (h.tabulates_rows normal.upper),
    h.boxLower, h.boxUpper, checkMergedBox_ok lowerBox, checkMergedBox_ok upperBox]
  simp only [ok_bind, Bool.false_eq_true, if_false]
  rw [lowers]
  cases bilateral : policy.bilateral with
  | true =>
    have present : ∀ r ∈ f.rows, r.lower.isSome := fun r hr => (normal.lower r hr).trans bilateral
    rw [if_pos rfl, count, List.filterMap_length_eq_length.2 present]
    simp [pure, Except.pure]
  | false =>
    have missing : ∀ r ∈ f.rows, r.lower = none := fun r hr => by
      simpa [bilateral] using normal.lower r hr
    rw [if_neg Bool.false_ne_true, List.filterMap_eq_nil_iff.2 missing]
    simp [pure, Except.pure]

/-! ### The run -/

variable [Zero α] [Neg α] [BoundScalar α] {policy : Policy} {name : String} {size : Int}
  {parts : List (Part α)}

/-- Parts that fit are merged one after another. -/
theorem foldlM_mergePart_ok (policy : Policy) (h : s.Presents n f)
    (fits : ∀ p ∈ parts, p.system.Fits n) :
    ∃ t, parts.foldlM (mergePart policy n) s = .ok t ∧
    t.Presents n (parts.foldl (fun f p => f.add (p.system.faces.normalize policy)) f) := by
  induction parts generalizing s f with
  | nil => exact ⟨s, rfl, h⟩
  | cons p parts ih =>
    obtain ⟨fit, others⟩ := List.forall_mem_cons.1 fits
    obtain ⟨s', step, next⟩ := mergePart_ok policy h fit
    obtain ⟨t, run, presents⟩ := ih next others
    exact ⟨t, by rw [List.foldlM_cons, step, ok_bind, run], presents⟩

/-- Parts that fit can be merged, if there can be arrays over the variables of the merge. -/
theorem merge_ok (policy : Policy) (name : String) {blank : LinearSystem α}
    (room : free n = .ok blank) (fits : ∀ p ∈ parts, p.system.Fits n) :
    ∃ t, merge policy name n parts = .ok t ∧
    t.Presents n (Faces.merge policy (parts.map (·.system.faces))) := by
  obtain ⟨k, count, empty⟩ := presents_free room
  obtain rfl := Int.ofNat_inj.1 count
  obtain ⟨t, run, presents⟩ := foldlM_mergePart_ok policy empty fits
  have listed : t.Presents n (Faces.merge policy (parts.map (·.system.faces))) := by
    rw [Faces.merge, List.foldl_map]
    exact presents
  refine ⟨t, ?_, listed⟩
  unfold merge mergeParts
  rw [room, ok_bind, run, ok_bind, listed.checkMerged_ok (Faces.normal_merge _ _), ok_bind]
  rfl

/-- A merge is accepted just when there can be arrays over its variables and every
part fits. It gives the arrays that list what the parts say, in the form of the policy. -/
theorem merge_eq_ok_iff :
    merge policy name size parts = .ok s ↔
      ∃ n : Nat, size = n ∧ (∃ blank : LinearSystem α, free size = .ok blank) ∧
        (∀ p ∈ parts, p.system.Fits n) ∧
        s.Presents n (Faces.merge policy (parts.map (·.system.faces))) := by
  constructor
  · intro merged
    obtain ⟨n, count, fits, presents⟩ := presents_of_merge merged
    obtain ⟨_, run, -⟩ := bind_eq_ok.1 merged
    obtain ⟨blank, start, -⟩ := bind_eq_ok.1 run
    exact ⟨n, count, ⟨blank, start⟩, fits, presents⟩
  · rintro ⟨n, rfl, ⟨blank, room⟩, fits, presents⟩
    obtain ⟨t, merged, presents'⟩ := merge_ok policy name room fits
    rw [merged, presents.unique presents']

end LinearSystem

end ControlHierarchy
