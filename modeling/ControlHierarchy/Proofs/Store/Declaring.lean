import ControlHierarchy.Proofs.Constraint.Setters
import ControlHierarchy.Proofs.Store.Combining

/-!
# Checks at the declaration and checks at the merge

A constraint over `n` variables can be declared with a check of its arrays, or
its arrays can be stored as they are and be checked by the first aggregate that
merges them. For vectors, and matrices that have columns, both checks let the
same arrays through (`LeafConstraint.exists_declared`), and an aggregate makes
the same of them (`Build.declared_iff_aggregated`). The arrays themselves need
not be the same: a setter gives a matrix without rows the columns of its owner,
and an aggregate does not look at its columns.
-/

namespace ControlHierarchy

variable {α : Type} {n : Nat} {name : String}

/-! ### Data -/

namespace ArrayData

/-- The data is absent or a vector. -/
def IsVector (data : Option (ArrayData α)) : Prop := ∀ d ∈ data, ∃ v, d.read = .ok (.vector v)

/-- The data is absent or a matrix that has columns. -/
def IsMatrix (data : Option (ArrayData α)) : Prop :=
  ∀ d ∈ data, ∃ m, d.read = .ok (.matrix m) ∧ m.width ≠ 0

end ArrayData

/-- All arrays that are given are vectors or matrices, according to their roles. -/
structure SystemData.WellTyped (d : SystemData α) : Prop where
  boxLower : ArrayData.IsVector d.boxLower
  boxUpper : ArrayData.IsVector d.boxUpper
  equalityMatrix : ArrayData.IsMatrix d.equalityMatrix
  equalityRhs : ArrayData.IsVector d.equalityRhs
  rowMatrix : ArrayData.IsMatrix d.rowMatrix
  rowLower : ArrayData.IsVector d.rowLower
  rowUpper : ArrayData.IsVector d.rowUpper

namespace RowMatrix

/-- A matrix as its owner keeps it: without rows it has `n` columns. -/
def adopted (n : Nat) (k : RowMatrix α) : RowMatrix α := if k.height = 0 then .empty n else k

@[simp] theorem rows_adopted (n : Nat) (k : RowMatrix α) : (k.adopted n).rows = k.rows := by
  unfold adopted
  split
  · next none => rw [rows_empty, List.length_eq_zero_iff.1 (k.length_rows.trans none)]
  · rfl

@[simp] theorem height_adopted (n : Nat) (k : RowMatrix α) : (k.adopted n).height = k.height := by
  rw [← length_rows, rows_adopted, length_rows]

theorem width_adopted (n : Nat) (k : RowMatrix α) :
    (k.adopted n).width = n ↔ k.height = 0 ∨ k.width = n := by
  unfold adopted
  split <;> simp [*]

end RowMatrix

namespace ArrayData

variable {data : Option (ArrayData α)}

theorem IsVector.exists_entries (h : IsVector data) :
    ∃ v, readVector data = .ok v ∧ LeafConstraint.replaced (.vector []) data = .ok (.vector v) := by
  cases data with
  | none => exact ⟨[], rfl, rfl⟩
  | some d =>
    obtain ⟨v, read⟩ := h d rfl
    exact ⟨v, by rw [readVector, read, ok_bind], read⟩

theorem IsMatrix.exists_rows (h : IsMatrix data)
    (room : (RowMatrix.withoutRows n : Except Error (RowMatrix α)) = .ok (.empty n)) :
    ∃ k : RowMatrix α, readMatrix n data = .ok (k.adopted n) ∧
      LeafConstraint.replaced (.matrix (.empty n)) data = .ok (.matrix k) := by
  cases data with
  | none => exact ⟨.empty n, room, rfl⟩
  | some d =>
    obtain ⟨k, read, columns⟩ := h d rfl
    refine ⟨k, ?_, read⟩
    have size : (Tensor.matrix k).size = k.height * k.width := by simp [Tensor.size, Tensor.shape]
    rw [readMatrix, read, ok_bind]
    by_cases none : k.height = 0
    · rw [if_pos (by rw [size, none, Nat.zero_mul]), room, RowMatrix.adopted, if_pos none]
    · rw [if_neg (by rw [size]; exact Nat.mul_ne_zero none columns), RowMatrix.adopted, if_neg none]

end ArrayData

/-! ### Setters -/

namespace LinearSystem

variable {s t : LinearSystem α} {matrix lower upper rightHandSide : Option (ArrayData α)}

theorem setBox_eq_ok {l u : List α} (hl : ArrayData.readVector lower = .ok l)
    (hu : ArrayData.readVector upper = .ok u) :
    s.setBox name n lower upper = .ok t ↔
      ((l = [] ∧ u = []) ∨ (l.length = n ∧ u.length = n)) ∧
        t = { s with boxLower := .vector l, boxUpper := .vector u } := by
  rw [setBox, hl, hu, ok_bind, ok_bind, throw_then, throw_then, pure_eq_ok, eq_comm (b := t),
    ← and_assoc]
  refine and_congr_left fun _ => ?_
  cases l <;> cases u <;> simp <;> omega

theorem setEqualities_eq_ok {m : RowMatrix α} {b : List α}
    (hm : ArrayData.readMatrix n matrix = .ok m)
    (hb : ArrayData.readVector rightHandSide = .ok b) :
    s.setEqualities name n matrix rightHandSide = .ok t ↔
      (m.width = n ∧ m.height = b.length) ∧
        t = { s with equalityMatrix := .matrix m, equalityRhs := .vector b } := by
  rw [setEqualities, hm, hb, ok_bind, ok_bind, throw_then, pure_eq_ok, eq_comm (b := t)]
  refine and_congr_left fun _ => ?_
  simp

theorem setInequalities_eq_ok {m : RowMatrix α} {l u : List α}
    (hm : ArrayData.readMatrix n matrix = .ok m) (hl : ArrayData.readVector lower = .ok l)
    (hu : ArrayData.readVector upper = .ok u) :
    s.setInequalities name n matrix lower upper = .ok t ↔
      (m.width = n ∧ (m.height = 0 ∨ ¬(l = [] ∧ u = [])) ∧
          (l = [] ∨ l.length = m.height) ∧ (u = [] ∨ u.length = m.height)) ∧
        t = { s with rowMatrix := .matrix m, rowLower := .vector l, rowUpper := .vector u } := by
  rw [setInequalities, hm, hl, hu, ok_bind, ok_bind, ok_bind, throw_then, throw_then, then_eq_ok,
    then_eq_ok, checkRowBound_eq_ok, checkRowBound_eq_ok, pure_eq_ok, eq_comm (b := t)]
  simp only [and_assoc]
  refine and_congr (by simp) (and_congr_left fun _ => ?_)
  simp only [Bool.and_eq_true, decide_eq_true_eq, List.isEmpty_iff]
  grind

theorem free_eq_ok (h : free n = .ok s) :
    RowMatrix.withoutRows n = .ok (.empty n : RowMatrix α) ∧
      s = ⟨.vector [], .vector [], .matrix (.empty n), .vector [], .matrix (.empty n), .vector [],
        .vector []⟩ := by
  obtain ⟨m, made, h⟩ := bind_eq_ok.1 h
  cases h
  have same : m = .empty n := by
    unfold RowMatrix.withoutRows at made
    split at made
    · cases made
    · cases made
      rfl
  exact ⟨same ▸ made, same ▸ rfl⟩

/-! ### Faces -/

theorem boxFits_vectors {l u : List α} (hl : s.boxLower = .vector l) (hu : s.boxUpper = .vector u) :
    s.BoxFits n ↔ (l = [] ∧ u = []) ∨ (l.length = n ∧ u.length = n) := by
  simp [BoxFits, hl, hu, Tensor.shape]

theorem equalitiesFit_arrays {k : RowMatrix α} {b : List α} (hk : s.equalityMatrix = .matrix k)
    (hb : s.equalityRhs = .vector b) :
    s.EqualitiesFit n ↔ (k.adopted n).width = n ∧ (k.adopted n).height = b.length := by
  rw [RowMatrix.width_adopted, RowMatrix.height_adopted, EqualitiesFit, hk, hb]
  simp only [Tensor.leading_matrix, Except.ok.injEq, Tensor.size_vector, Tensor.shape,
    List.cons.injEq, and_true]
  grind

theorem inequalitiesFit_arrays {k : RowMatrix α} {l u : List α} (hk : s.rowMatrix = .matrix k)
    (hl : s.rowLower = .vector l) (hu : s.rowUpper = .vector u) :
    s.InequalitiesFit n ↔
      (k.adopted n).width = n ∧ ((k.adopted n).height = 0 ∨ ¬(l = [] ∧ u = [])) ∧
        (l = [] ∨ l.length = (k.adopted n).height) ∧ (u = [] ∨ u.length = (k.adopted n).height) := by
  rw [RowMatrix.width_adopted, RowMatrix.height_adopted, InequalitiesFit, hk, hl, hu]
  simp only [Tensor.leading_matrix, Except.ok.injEq, Tensor.size_vector, Tensor.shape,
    List.cons.injEq, and_true, List.length_eq_zero_iff]
  by_cases none : k.height = 0
  · simp +contextual [none]
  · constructor
    · rintro (⟨absent, -⟩ | ⟨m, -, ⟨rfl, width⟩, lower, upper, bounded⟩)
      · exact absurd absent none
      · exact ⟨.inr width, .inr bounded, lower, upper⟩
    · rintro ⟨width, bounded, lower, upper⟩
      exact .inr ⟨k.height, none, ⟨rfl, width.resolve_left none⟩, lower, upper,
        bounded.resolve_left none⟩

end LinearSystem

namespace LeafConstraint

/-- A constraint can be declared with a check just when each of its faces passes
that of its setter. -/
theorem validated_eq_ok {data : SystemData α} {blank : LinearSystem α}
    (room : LinearSystem.free n = .ok blank) {c : LeafConstraint α} :
    validated name n data = .ok c ↔ ∃ boxed equated ruled,
      blank.setBox name n data.boxLower data.boxUpper = .ok boxed ∧
        boxed.setEqualities name n data.equalityMatrix data.equalityRhs = .ok equated ∧
        equated.setInequalities name n data.rowMatrix data.rowLower data.rowUpper = .ok ruled ∧
        c = ⟨name, n, ruled, .validated, []⟩ := by
  rw [validated, LinearSystem.blank, if_neg (Int.not_lt.2 (Int.natCast_nonneg n)), room, ok_bind]
  constructor
  · intro h
    obtain ⟨boxed, box, h⟩ := bind_eq_ok.1 h
    obtain ⟨equated, equalities, h⟩ := bind_eq_ok.1 h
    obtain ⟨ruled, rows, h⟩ := bind_eq_ok.1 h
    exact ⟨boxed, equated, ruled, box, equalities, rows, (pure_eq_ok.1 h).symm⟩
  · rintro ⟨boxed, equated, ruled, box, equalities, rows, rfl⟩
    rw [box, ok_bind, equalities, ok_bind, rows, ok_bind]
    rfl

variable (name) in
/-- Vectors and matrices that have columns can be declared without a check, if
there can be arrays over `n` variables at all. They can be declared with a check
just when they fit, and say the same then. -/
theorem exists_declared {data : SystemData α} {blank : LinearSystem α}
    (wellTyped : data.WellTyped) (room : LinearSystem.free n = .ok blank) :
    ∃ s t : LinearSystem α, unvalidated name n data = .ok ⟨name, n, s, .unvalidated, []⟩ ∧
      t.faces = s.faces ∧
        ∀ c, validated name n data = .ok c ↔ s.Fits n ∧ c = ⟨name, n, t, .validated, []⟩ := by
  obtain ⟨rowless, rfl⟩ := LinearSystem.free_eq_ok room
  obtain ⟨l, hl, rawL⟩ := wellTyped.boxLower.exists_entries
  obtain ⟨u, hu, rawU⟩ := wellTyped.boxUpper.exists_entries
  obtain ⟨k, hk, rawK⟩ := wellTyped.equalityMatrix.exists_rows rowless
  obtain ⟨b, hb, rawB⟩ := wellTyped.equalityRhs.exists_entries
  obtain ⟨m, hm, rawM⟩ := wellTyped.rowMatrix.exists_rows rowless
  obtain ⟨lo, hlo, rawLo⟩ := wellTyped.rowLower.exists_entries
  obtain ⟨up, hup, rawUp⟩ := wellTyped.rowUpper.exists_entries
  refine ⟨⟨.vector l, .vector u, .matrix k, .vector b, .matrix m, .vector lo, .vector up⟩,
    ⟨.vector l, .vector u, .matrix (k.adopted n), .vector b, .matrix (m.adopted n), .vector lo,
      .vector up⟩, ?_, ?_, fun c => ?_⟩
  · rw [unvalidated, LinearSystem.blank, if_neg (Int.not_lt.2 (Int.natCast_nonneg n)), room,
      ok_bind]
    simp only [rawL, rawU, rawK, rawB, rawM, rawLo, rawUp, ok_bind]
    rfl
  · simp [LinearSystem.faces, LinearSystem.hasBox, Tensor.rowList]
  · rw [validated_eq_ok room]
    simp only [LinearSystem.setBox_eq_ok hl hu, LinearSystem.setEqualities_eq_ok hk hb,
      LinearSystem.setInequalities_eq_ok hm hlo hup]
    constructor
    · rintro ⟨_, _, _, ⟨box, rfl⟩, ⟨equalities, rfl⟩, ⟨rows, rfl⟩, rfl⟩
      exact ⟨⟨(LinearSystem.boxFits_vectors rfl rfl).2 box,
        (LinearSystem.equalitiesFit_arrays rfl rfl).2 equalities,
        (LinearSystem.inequalitiesFit_arrays rfl rfl rfl).2 rows⟩, rfl⟩
    · rintro ⟨fits, rfl⟩
      exact ⟨_, _, _, ⟨(LinearSystem.boxFits_vectors rfl rfl).1 fits.box, rfl⟩,
        ⟨(LinearSystem.equalitiesFit_arrays rfl rfl).1 fits.equalities, rfl⟩,
        ⟨(LinearSystem.inequalitiesFit_arrays rfl rfl rfl).1 fits.inequalities, rfl⟩, rfl⟩

/-- There can be arrays over the variables of a constraint that is declared, whether
with a check or without. -/
theorem room_of_declared {data : SystemData α} {c : LeafConstraint α}
    (declared : validated name n data = .ok c ∨ unvalidated name n data = .ok c) :
    ∃ blank : LinearSystem α, LinearSystem.free n = .ok blank := by
  have start : ∃ blank : LinearSystem α, LinearSystem.blank name n = .ok blank := by
    rcases declared with h | h
    all_goals
      obtain ⟨blank, start, -⟩ := bind_eq_ok.1 h
      exact ⟨blank, start⟩
  rwa [LinearSystem.blank, if_neg (Int.not_lt.2 (Int.natCast_nonneg n))] at start

end LeafConstraint

/-! ### The aggregate of one constraint -/

/-- The store after the declaration of a constraint. -/
def Store.afterDeclaring (s : Store α) (c : LeafConstraint α) : Store α :=
  { s with leafConstraints := s.leafConstraints.write s.leafConstraints.next c }

theorem Store.cell_afterDeclaring (s : Store α) (c : LeafConstraint α) :
    (s.afterDeclaring c).leafConstraints.read s.leafConstraints.next = c :=
  Cells.read_write_self _ _ _

namespace Build

variable [Zero α] [Neg α] [BoundScalar α] {s t : Store α} {policy : Policy} {d : ConstraintRef}

/-- Stores a constraint, and aggregates it alone. -/
def aggregateOf (c : LeafConstraint α) (size : Int) (policy : Literal) : Build α ConstraintRef := do
  mergeConstraints [← newLeafConstraint c] size policy

theorem exec_aggregateOf (c : LeafConstraint α) (size : Int) (policy : Literal) :
    (aggregateOf c size policy).exec s =
      (mergeConstraints [.leaf s.leafConstraints.next] size policy).exec (s.afterDeclaring c) :=
  rfl

/-- Constraints can be aggregated just when they can be combined. -/
theorem mergeConstraints_succeeds_iff {parts : List ConstraintRef} {size : Int} :
    (∃ d t, (mergeConstraints parts size (.integer policy.word)).exec s = (.ok d, t)) ↔
      s.Combinable size parts := by
  rw [← mergedConstraint_succeeds_iff (p := policy)]
  constructor
  · rintro ⟨d, t, run⟩
    obtain ⟨m, s', merged, -⟩ := exec_bind_eq_ok.1 run
    exact ⟨m, s', merged⟩
  · rintro ⟨m, s', merged⟩
    exact ⟨_, _, exec_bind_ok merged⟩

variable (policy) in
theorem aggregateOf_succeeds_iff {c : LeafConstraint α} (size : c.size = n)
    (fresh : ∀ operation,
      s.isReplaced (.constraint (.leaf s.leafConstraints.next)) operation = false) :
    (∃ d t, (aggregateOf c n (.integer policy.word)).exec s = (.ok d, t)) ↔
      (∃ blank : LinearSystem α, LinearSystem.free n = .ok blank) ∧ c.system.Fits n := by
  have cell := s.cell_afterDeclaring c
  have system : (s.afterDeclaring c).constraintSystem (.leaf s.leafConstraints.next) = c.system :=
    congrArg LeafConstraint.system cell
  rw [exec_aggregateOf, mergeConstraints_succeeds_iff]
  constructor
  · rintro ⟨-, room, join⟩
    have fits := (join _ List.mem_cons_self).fits
    rw [system] at fits
    exact ⟨room, fits⟩
  · rintro ⟨room, fits⟩
    refine ⟨List.cons_ne_nil _ _, room, List.forall_mem_singleton.2 ⟨?_, ?_, ?_⟩⟩
    · exact (congrArg LeafConstraint.size cell).trans size
    · exact Store.stuckAt?_of_intact fresh
    · rw [system]
      exact fits

/-- An aggregate of one constraint presents what it says, in the form of the policy. -/
theorem presents_of_aggregateOf {c : LeafConstraint α}
    (run : (aggregateOf c n (.integer policy.word)).exec s = (.ok d, t)) :
    (t.constraintSystem d).Presents n (Faces.merge policy [c.system.faces]) := by
  rw [exec_aggregateOf] at run
  obtain ⟨m, s', merged, stored⟩ := exec_bind_eq_ok.1 run
  obtain ⟨k, count, presents⟩ := presents_of_mergedConstraint merged
  cases Int.ofNat_inj.1 count
  cases stored
  have read : (s'.mergedConstraints.write s'.mergedConstraints.next m).read
      s'.mergedConstraints.next = m := Cells.read_write_self _ _ _
  simp only [Store.constraintSystem, List.map_cons, List.map_nil, Store.cell_afterDeclaring] at *
  rwa [read]

/-- Vectors, and matrices that have columns, pass the check at the declaration of a
constraint just when an aggregate accepts the constraint with these arrays as they
are, under any policy. Then the aggregate of the checked constraint has the same
arrays as that of the unchecked one. -/
theorem declared_iff_aggregated {data : SystemData α} (wellTyped : data.WellTyped)
    (fresh : ∀ operation,
      s.isReplaced (.constraint (.leaf s.leafConstraints.next)) operation = false)
    (name : String) (n : Nat) (policy : Policy) :
    ((∃ c, LeafConstraint.validated name n data = .ok c) ↔
      ∃ raw, LeafConstraint.unvalidated name n data = .ok raw ∧
        ∃ d t, (aggregateOf raw n (.integer policy.word)).exec s = (.ok d, t)) ∧
    ∀ c, LeafConstraint.validated name n data = .ok c →
      ∃ raw d t d' t', LeafConstraint.unvalidated name n data = .ok raw ∧
        (aggregateOf c n (.integer policy.word)).exec s = (.ok d, t) ∧
        (aggregateOf raw n (.integer policy.word)).exec s = (.ok d', t') ∧
        t.constraintSystem d = t'.constraintSystem d' := by
  by_cases room : ∃ blank : LinearSystem α, LinearSystem.free n = .ok blank
  · obtain ⟨blank, free⟩ := room
    obtain ⟨raw, kept, unchecked, faces, checked⟩ :=
      LeafConstraint.exists_declared name wellTyped free
    have accepts := aggregateOf_succeeds_iff (n := n) (s := s) policy
      (c := ⟨name, n, raw, .unvalidated, []⟩) rfl fresh
    rw [unchecked]
    refine ⟨?_, fun c declared => ?_⟩
    · simp only [Except.ok.injEq, exists_eq_left', accepts, checked]
      exact ⟨fun ⟨c, fits, _⟩ => ⟨⟨blank, free⟩, fits⟩, fun h => ⟨_, h.2, rfl⟩⟩
    · obtain ⟨-, size, -, fits⟩ := LeafConstraint.fits_validated declared
      obtain ⟨d, t, run⟩ := (aggregateOf_succeeds_iff policy size fresh).2
        ⟨⟨blank, free⟩, fits⟩
      obtain ⟨rawFits, rfl⟩ := (checked c).1 declared
      obtain ⟨d', t', run'⟩ := accepts.2 ⟨⟨blank, free⟩, rawFits⟩
      have presents := presents_of_aggregateOf run
      have presents' := presents_of_aggregateOf run'
      rw [faces] at presents
      exact ⟨_, d, t, d', t', rfl, run, run', presents.unique presents'⟩
  · have undeclared : ∀ c, ¬LeafConstraint.validated name n data = .ok c := fun c declared =>
      room (LeafConstraint.room_of_declared (.inl declared))
    refine ⟨⟨fun ⟨c, declared⟩ => absurd declared (undeclared c), ?_⟩,
      fun c declared => absurd declared (undeclared c)⟩
    rintro ⟨raw, declared, -⟩
    exact absurd (LeafConstraint.room_of_declared (.inr declared)) room

/-- A box over two variables, with equalities that have no rows but three columns. -/
def boxBesideRowless : SystemData Float :=
  ⟨some (.shaped (.vector [0, 0])), some (.shaped (.vector [1, 1])),
    some (.shaped (.matrix (.empty 3))), none, none, none, none⟩

theorem boxBesideRowless_wellTyped : boxBesideRowless.WellTyped where
  boxLower := fun _ given => ⟨_, by cases given; rfl⟩
  boxUpper := fun _ given => ⟨_, by cases given; rfl⟩
  equalityMatrix := fun _ given => ⟨_, by cases given; rfl, Nat.succ_ne_zero _⟩
  equalityRhs := nofun
  rowMatrix := nofun
  rowLower := nofun
  rowUpper := nofun

/-- The box can be declared with a check and without one, and is aggregated to the
same arrays. -/
theorem boxBesideRowless_aggregated :
    ∃ c raw d t d' t', LeafConstraint.validated "box" 2 boxBesideRowless = .ok c ∧
      LeafConstraint.unvalidated "box" 2 boxBesideRowless = .ok raw ∧
      raw.system.equalityMatrix ≠ c.system.equalityMatrix ∧
      (aggregateOf c 2 (.integer 3)).exec Store.empty = (.ok d, t) ∧
      (aggregateOf raw 2 (.integer 3)).exec Store.empty = (.ok d', t') ∧
      t.constraintSystem d = t'.constraintSystem d' := by
  have declared : LeafConstraint.validated "box" 2 boxBesideRowless = .ok ⟨"box", 2,
      ⟨.vector [0, 0], .vector [1, 1], .matrix (.empty 2), .vector [], .matrix (.empty 2),
        .vector [], .vector []⟩, .validated, []⟩ := rfl
  obtain ⟨raw, d, t, d', t', unchecked, run, run', same⟩ :=
    (declared_iff_aggregated boxBesideRowless_wellTyped (s := .empty) (fun _ => rfl) "box" 2
      .standard).2 _ declared
  refine ⟨_, raw, d, t, d', t', declared, unchecked, ?_, run, run', same⟩
  cases unchecked
  intro columns
  have widths : (3 : Nat) = 2 := congrArg (fun m => m.shape[1]!) columns
  omega

end Build

end ControlHierarchy
