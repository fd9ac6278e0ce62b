import ControlHierarchy.Proofs.Tensor.Matrices
import ControlHierarchy.Proofs.Tensor.Refusal
import ControlHierarchy.VariableLayout

/-!
# Trees of affine maps

Affine maps are put together by sums, differences, opposites, multiples,
products with a matrix and piles. A tree of these operations (`AffineTerm`) can
be built into one map; or its leaves can be evaluated at an input, and their
values put together by the operations of the same names on vectors. Over exact
numbers both come to the same (`AffineTerm.build_evaluates`).

A map that was built from a tree has a matrix `M` and an offset `q`
(`AffineTerm.Represents`), and every operation changes both in step. Shapes that
do not fit together are refused by the operation that meets them
(`AffineTerm.Refused`).
-/

namespace ControlHierarchy

open Matrix

variable {α : Type} {k l m n : ℕ}

theorem zipWith_ofFn {β γ : Type} (f : α → β → γ) (u : Fin n → α) (v : Fin n → β) :
    List.zipWith f (List.ofFn u) (List.ofFn v) = List.ofFn fun i => f (u i) (v i) := by
  refine List.ext_getElem (by simp) fun i _ _ => ?_
  rw [List.getElem_zipWith, List.getElem_ofFn, List.getElem_ofFn, List.getElem_ofFn]

namespace RowMatrix

theorem map_ofMatrix {β : Type} (f : α → β) (M : Matrix (Fin k) (Fin n) α) :
    (ofMatrix M).map f = ofMatrix (M.map f) := by
  refine ext rfl ?_
  rw [rows_map, rows_ofMatrix, rows_ofMatrix, List.map_ofFn]
  exact congrArg List.ofFn (funext fun i => List.map_ofFn)

theorem zipWith_ofMatrix (f : α → α → α) (M N : Matrix (Fin k) (Fin n) α)
    (width : (ofMatrix M).width = (ofMatrix N).width) :
    (ofMatrix M).zipWith f (ofMatrix N) width = ofMatrix (.of fun i j => f (M i j) (N i j)) := by
  refine ext rfl ?_
  rw [rows_zipWith, rows_ofMatrix, rows_ofMatrix, rows_ofMatrix, zipWith_ofFn]
  exact congrArg List.ofFn (funext fun i => zipWith_ofFn f (M.row i) (N.row i))

end RowMatrix

theorem piled_mulVec_add [Semiring α] (M : Matrix (Fin k) (Fin n) α) (N : Matrix (Fin l) (Fin n) α)
    (q : Fin k → α) (r : Fin l → α) (x : Fin n → α) :
    piled M N *ᵥ x + Fin.append q r = Fin.append (M *ᵥ x + q) (N *ᵥ x + r) := by
  refine funext fun i => Fin.addCases (fun i => ?_) (fun i => ?_) i
  · have row : piled M N (Fin.castAdd l i) = M i := funext (piled_castAdd M N i)
    rw [Pi.add_apply, Fin.append_left, Fin.append_left, mulVec, row]
    rfl
  · have row : piled M N (Fin.natAdd k i) = N i := funext (piled_natAdd M N i)
    rw [Pi.add_apply, Fin.append_right, Fin.append_right, mulVec, row]
    rfl

namespace AffineMap

@[ext] theorem ext {e g : AffineMap α} (matrix : e.matrix = g.matrix)
    (offset : e.offset = g.offset) : e = g := by
  cases e; cases g; simp_all

/-- The map `x ↦ M x + q`. -/
def ofMatrix (M : Matrix (Fin k) (Fin n) α) (q : Fin k → α) : AffineMap α :=
  ⟨.ofMatrix M, List.ofFn q, by simp⟩

@[simp] theorem outputs_ofMatrix (M : Matrix (Fin k) (Fin n) α) (q : Fin k → α) :
    (ofMatrix M q).outputs = k := RowMatrix.height_ofMatrix M

@[simp] theorem inputs_ofMatrix (M : Matrix (Fin k) (Fin n) α) (q : Fin k → α) :
    (ofMatrix M q).inputs = n := rfl

/-- Every affine map is one of a matrix and an offset. -/
theorem exists_ofMatrix (e : AffineMap α) :
    ∃ (k n : ℕ) (M : Matrix (Fin k) (Fin n) α) (q : Fin k → α), e = ofMatrix M q := by
  obtain ⟨M, matrix⟩ := RowMatrix.exists_ofMatrix (r := e.matrix) rfl rfl
  obtain ⟨q, offset⟩ := exists_ofFn e.length_offset
  exact ⟨_, _, M, q, ext matrix offset⟩

/-! ### Matrix and offset of a composed map -/

theorem map_ofMatrix (f : α → α) (M : Matrix (Fin k) (Fin n) α) (q : Fin k → α) :
    (ofMatrix M q).map f = ofMatrix (M.map f) (f ∘ q) :=
  ext (RowMatrix.map_ofMatrix f M) List.map_ofFn

theorem zipWith_ofMatrix (f : α → α → α) (M N : Matrix (Fin k) (Fin n) α) (q r : Fin k → α) :
    zipWith f (ofMatrix M q) (ofMatrix N r) =
      .ok (ofMatrix (.of fun i j => f (M i j) (N i j)) fun i => f (q i) (r i)) := by
  have same : (ofMatrix M q).matrix.height = (ofMatrix N r).matrix.height ∧
      (ofMatrix M q).matrix.width = (ofMatrix N r).matrix.width := by
    simp [ofMatrix]
  rw [zipWith, dif_pos same]
  exact congrArg Except.ok (ext (RowMatrix.zipWith_ofMatrix f M N rfl) (zipWith_ofFn f q r))

theorem pile_ofMatrix (M : Matrix (Fin k) (Fin n) α) (N : Matrix (Fin l) (Fin n) α)
    (q : Fin k → α) (r : Fin l → α) :
    (ofMatrix M q).pile (ofMatrix N r) = .ok (ofMatrix (piled M N) (Fin.append q r)) := by
  have width : (ofMatrix M q).matrix.width = (ofMatrix N r).matrix.width := rfl
  rw [pile, dif_pos width]
  exact congrArg Except.ok (ext (RowMatrix.append_ofMatrix M N rfl) (List.ofFn_fin_append q r).symm)

section Products

variable [Semiring α]

theorem multiply_ofMatrix (F : Matrix (Fin l) (Fin k) α) (M : Matrix (Fin k) (Fin n) α)
    (q : Fin k → α) :
    multiply (.matrix (.ofMatrix F)) (ofMatrix M q) = .ok (ofMatrix (F * M) (F *ᵥ q)) := by
  have fits : (RowMatrix.ofMatrix F).width = (ofMatrix M q).outputs := by simp
  rw [multiply, if_pos fits]
  exact congrArg Except.ok (ext (RowMatrix.mul_ofMatrix F M) (RowMatrix.mulVec_ofMatrix F q))

theorem value_ofMatrix (M : Matrix (Fin k) (Fin n) α) (q : Fin k → α) (x : Fin n → α) :
    (ofMatrix M q).value (.vector (List.ofFn x)) = .ok (.vector (List.ofFn (M *ᵥ x + q))) := by
  rw [value, ofMatrix, Tensor.product_ofFn, ok_bind, Tensor.combine_vector _ (by simp),
    zipWith_ofFn]
  rfl

end Products

/-! ### Shapes that do not fit together -/

theorem zipWith_of_ne (f : α → α → α) {M : Matrix (Fin k) (Fin n) α} {N : Matrix (Fin l) (Fin m) α}
    (q : Fin k → α) (r : Fin l → α) (differ : (k, n) ≠ (l, m)) :
    zipWith f (ofMatrix M q) (ofMatrix N r) = .error (.affineShapesDiffer [k, n] [l, m]) := by
  simpa [zipWith, ofMatrix] using differ

theorem pile_of_ne {M : Matrix (Fin k) (Fin n) α} {N : Matrix (Fin l) (Fin m) α} (q : Fin k → α)
    (r : Fin l → α) (differ : n ≠ m) :
    (ofMatrix M q).pile (ofMatrix N r) = .error (.pileColumns n m) :=
  dif_neg differ

theorem multiply_of_ne [Semiring α] {factor : Tensor α} {M : Matrix (Fin k) (Fin n) α}
    (q : Fin k → α) (misfit : ∀ rows, factor.shape ≠ [rows, k]) :
    multiply factor (ofMatrix M q) = .error (.affineFactor factor.shape k) := by
  cases factor with
  | matrix F =>
    have width : F.width ≠ (ofMatrix M q).outputs := by
      rw [outputs_ofMatrix]
      exact fun same => misfit F.height (same ▸ rfl)
    rw [multiply, if_neg width, outputs_ofMatrix, Tensor.shape]
  | _ => rw [multiply, outputs_ofMatrix]; simp

end AffineMap

/-- A tree of operations on affine maps. -/
inductive AffineTerm (α : Type) where
  | leaf (map : AffineMap α)
  | add (left right : AffineTerm α)
  | sub (left right : AffineTerm α)
  | neg (term : AffineTerm α)
  | scale (factor : α) (term : AffineTerm α)
  /-- An array in front of a map, multiplied with it in one way or the other. -/
  | multiply (factor : Tensor α) (term : AffineTerm α)
  | pile (top bottom : AffineTerm α)

namespace AffineTerm

section Operations

variable [Zero α] [Add α] [Sub α] [Neg α] [Mul α]

/-- The affine map that a tree builds. -/
def build : AffineTerm α → Except Error (AffineMap α)
  | leaf e => .ok e
  | add t u => do (← t.build).add (← u.build)
  | sub t u => do (← t.build).sub (← u.build)
  | neg t => return (← t.build).neg
  | scale c t => return (← t.build).scale c
  | multiply factor t => do AffineMap.multiply factor (← t.build)
  | pile t u => do (← t.build).pile (← u.build)

/-- The values of the leaves at an input, put together. -/
def evaluate (x : Tensor α) : AffineTerm α → Except Error (Tensor α)
  | leaf e => e.value x
  | add t u => do Tensor.combine (· + ·) (← t.evaluate x) (← u.evaluate x)
  | sub t u => do Tensor.combine (· - ·) (← t.evaluate x) (← u.evaluate x)
  | neg t => return (← t.evaluate x).map (-·)
  | scale c t => return (← t.evaluate x).map (c * ·)
  | multiply factor t => do factor.product (← t.evaluate x)
  | pile t u => do (← t.evaluate x).pile (← u.evaluate x)

end Operations

/-- The numbers of outputs and inputs of a tree whose shapes fit together: terms
of a sum have one shape, an array in front of a map has two dimensions and as
many columns as the map has outputs, and what is piled has the same inputs. -/
def shape? : AffineTerm α → Option (ℕ × ℕ)
  | leaf e => some (e.outputs, e.inputs)
  | add t u | sub t u => do
    let shape ← t.shape?
    if shape = (← u.shape?) then some shape else none
  | neg t | scale _ t => t.shape?
  | multiply factor t => do
    let (outputs, inputs) ← t.shape?
    match factor.shape with
    | [rows, columns] => if columns = outputs then some (rows, inputs) else none
    | _ => none
  | pile t u => do
    let (top, inputs) ← t.shape?
    let (bottom, inputs') ← u.shape?
    if inputs = inputs' then some (top + bottom, inputs) else none

section Trees

variable [Ring α] {t u : AffineTerm α}

/-- The tree builds the map `x ↦ M x + q`, and its leaves yield the values of this map. -/
structure Represents (t : AffineTerm α) (M : Matrix (Fin k) (Fin n) α) (q : Fin k → α) : Prop where
  shape : t.shape? = some (k, n)
  build : t.build = .ok (.ofMatrix M q)
  evaluate : ∀ x : Fin n → α,
    t.evaluate (.vector (List.ofFn x)) = .ok (.vector (List.ofFn (M *ᵥ x + q)))

/-- Somewhere in the tree there are shapes that do not fit together. -/
def Refused (t : AffineTerm α) : Prop :=
  t.shape? = none ∧ ∃ e, t.build = .error e ∧ e.kind = some .dimensionMismatch

section Steps

variable {M : Matrix (Fin k) (Fin n) α} {N : Matrix (Fin l) (Fin m) α} {q : Fin k → α}
  {r : Fin l → α}

theorem represents_leaf (M : Matrix (Fin k) (Fin n) α) (q : Fin k → α) :
    (leaf (.ofMatrix M q)).Represents M q where
  shape := by rw [shape?, AffineMap.outputs_ofMatrix, AffineMap.inputs_ofMatrix]
  build := rfl
  evaluate x := AffineMap.value_ofMatrix M q x

/-- One function on every entry of a map acts on its values in the same way. -/
theorem Represents.entries {s : AffineTerm α} {f : α → α} (ht : t.Represents M q)
    (shape : s.shape? = t.shape?) (build : s.build = t.build >>= fun e => .ok (e.map f))
    (evaluate : ∀ x, s.evaluate x = t.evaluate x >>= fun v => .ok (v.map f))
    (value : ∀ x, M.map f *ᵥ x + f ∘ q = f ∘ (M *ᵥ x + q)) :
    s.Represents (M.map f) (f ∘ q) where
  shape := shape.trans ht.shape
  build := by rw [build, ht.build, ok_bind, AffineMap.map_ofMatrix]
  evaluate x := by
    rw [evaluate, ht.evaluate, ok_bind, Tensor.map, List.map_ofFn, value]

theorem Represents.neg (ht : t.Represents M q) : t.neg.Represents (-M) (-q) := by
  refine ht.entries (f := (-·)) rfl rfl (fun _ => rfl) fun x => ?_
  have value : -M *ᵥ x + -q = -(M *ᵥ x + q) := by rw [neg_mulVec, neg_add]
  exact value

theorem Represents.scale (ht : t.Represents M q) (c : α) :
    (t.scale c).Represents (c • M) (c • q) := by
  refine ht.entries (f := (c * ·)) rfl rfl (fun _ => rfl) fun x => ?_
  have value : (c • M) *ᵥ x + c • q = c • (M *ᵥ x + q) := by rw [smul_mulVec, smul_add]
  exact value

theorem Represents.multiply (ht : t.Represents M q) (F : Matrix (Fin l) (Fin k) α) :
    (t.multiply (.matrix (.ofMatrix F))).Represents (F * M) (F *ᵥ q) where
  shape := by
    rw [shape?, ht.shape, RowMatrix.shape_ofMatrix]
    exact if_pos rfl
  build := by rw [AffineTerm.build, ht.build, ok_bind, AffineMap.multiply_ofMatrix]
  evaluate x := by
    rw [AffineTerm.evaluate, ht.evaluate, ok_bind, Tensor.product_ofFn, mulVec_add, mulVec_mulVec]

theorem Represents.pile {N : Matrix (Fin l) (Fin n) α} (ht : t.Represents M q)
    (hu : u.Represents N r) : (t.pile u).Represents (piled M N) (Fin.append q r) where
  shape := by
    rw [shape?, ht.shape, hu.shape]
    exact if_pos rfl
  build := by
    rw [AffineTerm.build, ht.build, hu.build, ok_bind, ok_bind, AffineMap.pile_ofMatrix]
  evaluate x := by
    rw [AffineTerm.evaluate, ht.evaluate, hu.evaluate, ok_bind, ok_bind, Tensor.pile_vector,
      ← List.ofFn_fin_append, piled_mulVec_add]

section Terms

variable {N : Matrix (Fin k) (Fin n) α} {r : Fin k → α}

/-- Two maps of one shape, put together entry by entry. -/
theorem Represents.terms {s : AffineTerm α} {f : α → α → α} (ht : t.Represents M q)
    (hu : u.Represents N r)
    (shape : s.shape? = t.shape? >>= fun a => u.shape? >>= fun b => if a = b then some a else none)
    (build : s.build = t.build >>= fun e => u.build >>= AffineMap.zipWith f e)
    (evaluate : ∀ x, s.evaluate x = t.evaluate x >>= fun v => u.evaluate x >>= Tensor.combine f v)
    (value : ∀ x, (of fun i j => f (M i j) (N i j)) *ᵥ x + (fun i => f (q i) (r i)) =
      fun i => f ((M *ᵥ x + q) i) ((N *ᵥ x + r) i)) :
    s.Represents (of fun i j => f (M i j) (N i j)) fun i => f (q i) (r i) where
  shape := by
    rw [shape, ht.shape, hu.shape]
    exact if_pos rfl
  build := by rw [build, ht.build, hu.build, ok_bind, ok_bind, AffineMap.zipWith_ofMatrix]
  evaluate x := by
    rw [evaluate, ht.evaluate, hu.evaluate, ok_bind, ok_bind, Tensor.combine_vector _ (by simp),
      zipWith_ofFn, value]

theorem Represents.add (ht : t.Represents M q) (hu : u.Represents N r) :
    (t.add u).Represents (M + N) (q + r) := by
  refine ht.terms hu (f := (· + ·)) rfl rfl (fun _ => rfl) fun x => ?_
  have value : (M + N) *ᵥ x + (q + r) = (M *ᵥ x + q) + (N *ᵥ x + r) := by
    rw [add_mulVec, add_add_add_comm]
  exact value

theorem Represents.sub (ht : t.Represents M q) (hu : u.Represents N r) :
    (t.sub u).Represents (M - N) (q - r) := by
  refine ht.terms hu (f := (· - ·)) rfl rfl (fun _ => rfl) fun x => ?_
  have value : (M - N) *ᵥ x + (q - r) = (M *ᵥ x + q) - (N *ᵥ x + r) := by
    rw [sub_mulVec, sub_add_sub_comm]
  exact value

end Terms

/-- Terms of a sum or a difference need one shape. -/
theorem Represents.refused_terms {s : AffineTerm α} {f : α → α → α} (ht : t.Represents M q)
    (hu : u.Represents N r) (differ : (k, n) ≠ (l, m))
    (shape : s.shape? = t.shape? >>= fun a => u.shape? >>= fun b => if a = b then some a else none)
    (build : s.build = t.build >>= fun e => u.build >>= AffineMap.zipWith f e) : s.Refused := by
  refine ⟨?_, .affineShapesDiffer [k, n] [l, m], ?_, rfl⟩
  · rw [shape, ht.shape, hu.shape]
    exact if_neg differ
  · rw [build, ht.build, hu.build]
    exact AffineMap.zipWith_of_ne f q r differ

theorem Represents.refused_pile (ht : t.Represents M q) (hu : u.Represents N r)
    (differ : n ≠ m) : (t.pile u).Refused := by
  refine ⟨?_, .pileColumns n m, ?_, rfl⟩
  · rw [shape?, ht.shape, hu.shape]
    exact if_neg differ
  · rw [AffineTerm.build, ht.build, hu.build]
    exact AffineMap.pile_of_ne q r differ

theorem Represents.refused_multiply {factor : Tensor α} (ht : t.Represents M q)
    (misfit : ∀ rows, factor.shape ≠ [rows, k]) : (t.multiply factor).Refused := by
  refine ⟨?_, .affineFactor factor.shape k, ?_, rfl⟩
  · rw [shape?, ht.shape, Option.bind_eq_bind, Option.bind_some]
    dsimp only
    split
    · next rows columns shape =>
      have columns : columns ≠ k := by
        rintro rfl
        exact misfit rows shape
      exact if_neg columns
    · rfl
  · rw [AffineTerm.build, ht.build]
    exact AffineMap.multiply_of_ne q misfit

end Steps

/-! ### Whole trees -/

/-- The tree builds a map with the values of its leaves, or is refused. -/
def Settled (t : AffineTerm α) : Prop :=
  (∃ (k n : ℕ) (M : Matrix (Fin k) (Fin n) α) (q : Fin k → α), t.Represents M q) ∨ t.Refused

theorem Represents.settled {M : Matrix (Fin k) (Fin n) α} {q : Fin k → α}
    (ht : t.Represents M q) : t.Settled :=
  .inl ⟨k, n, M, q, ht⟩

/-- A refusal of the operand that is built first is one of the whole. -/
theorem Refused.first (ht : t.Refused) {f : ℕ × ℕ → Option (ℕ × ℕ)}
    {g : AffineMap α → Except Error (AffineMap α)} (shape : u.shape? = t.shape? >>= f)
    (build : u.build = t.build >>= g) : u.Refused := by
  obtain ⟨misfit, e, failed, kind⟩ := ht
  exact ⟨by rw [shape, misfit]; rfl, e, by rw [build, failed]; rfl, kind⟩

theorem Settled.unary {s : AffineTerm α} {f : ℕ × ℕ → Option (ℕ × ℕ)}
    {g : AffineMap α → Except Error (AffineMap α)} (ht : t.Settled)
    (shape : s.shape? = t.shape? >>= f) (build : s.build = t.build >>= g)
    (step : ∀ ⦃k n⦄ ⦃M : Matrix (Fin k) (Fin n) α⦄ ⦃q⦄, t.Represents M q → s.Settled) :
    s.Settled := by
  obtain ⟨k, n, M, q, ht⟩ | ht := ht
  · exact step ht
  · exact .inr (ht.first shape build)

/-- With two operands, it remains to see that they fit together. -/
theorem Settled.binary {s : AffineTerm α} {f : ℕ × ℕ → ℕ × ℕ → Option (ℕ × ℕ)}
    {g : AffineMap α → AffineMap α → Except Error (AffineMap α)} (ht : t.Settled) (hu : u.Settled)
    (shape : s.shape? = t.shape? >>= fun a => u.shape? >>= f a)
    (build : s.build = t.build >>= fun e => u.build >>= g e)
    (step : ∀ ⦃k n l m⦄ ⦃M : Matrix (Fin k) (Fin n) α⦄ ⦃N : Matrix (Fin l) (Fin m) α⦄ ⦃q r⦄,
      t.Represents M q → u.Represents N r → s.Settled) :
    s.Settled := by
  refine ht.unary shape build fun k n M q ht => ?_
  rw [ht.shape] at shape
  rw [ht.build] at build
  exact hu.unary shape build fun l m N r hu => step ht hu

theorem settled (t : AffineTerm α) : t.Settled := by
  -- operands that were built can still fail to fit together; that is where the cases are split
  induction t with
  | leaf e =>
    obtain ⟨k, n, M, q, rfl⟩ := e.exists_ofMatrix
    exact (represents_leaf M q).settled
  | add t u iht ihu =>
    refine iht.binary ihu rfl rfl fun k n l m M N q r ht hu => ?_
    by_cases same : (k, n) = (l, m)
    · cases same
      exact (ht.add hu).settled
    · exact .inr (ht.refused_terms hu same rfl rfl)
  | sub t u iht ihu =>
    refine iht.binary ihu rfl rfl fun k n l m M N q r ht hu => ?_
    by_cases same : (k, n) = (l, m)
    · cases same
      exact (ht.sub hu).settled
    · exact .inr (ht.refused_terms hu same rfl rfl)
  | neg t iht =>
    exact iht.unary (bind_pure t.shape?).symm rfl fun k n M q ht => ht.neg.settled
  | scale c t iht =>
    exact iht.unary (bind_pure t.shape?).symm rfl fun k n M q ht => (ht.scale c).settled
  | multiply factor t iht =>
    refine iht.unary rfl rfl fun k n M q ht => ?_
    by_cases fits : ∃ rows, factor.shape = [rows, k]
    · obtain ⟨l, shape⟩ := fits
      obtain ⟨F, rfl, height, width⟩ := Tensor.exists_matrix_of_shape shape
      obtain ⟨F, rfl⟩ := RowMatrix.exists_ofMatrix height width
      exact (ht.multiply F).settled
    · exact .inr (ht.refused_multiply (not_exists.1 fits))
  | pile t u iht ihu =>
    refine iht.binary ihu rfl rfl fun k n l m M N q r ht hu => ?_
    by_cases same : n = m
    · cases same
      exact (ht.pile hu).settled
    · exact .inr (ht.refused_pile hu same)

/-- A tree can be built just when its shapes fit together, and is refused by name
otherwise. The map that it builds has the outputs and inputs that its shapes
amount to, and at every input the value that is put together from the values of
the leaves. -/
theorem build_evaluates (t : AffineTerm α) :
    (t.shape? = none ↔ ∃ e, t.build = .error e) ∧
    (∀ e, t.build = .error e → e.kind = some .dimensionMismatch) ∧
    ∀ k n, t.shape? = some (k, n) → ∃ e, t.build = .ok e ∧
      (Tensor.matrix e.matrix).shape = [k, n] ∧ (Tensor.vector e.offset).shape = [k] ∧
      ∀ x : List α, x.length = n → ∃ v, v.length = k ∧ e.value (.vector x) = .ok (.vector v) ∧
        t.evaluate (.vector x) = .ok (.vector v) := by
  obtain ⟨k, n, M, q, ht⟩ | ⟨misfit, e, failed, kind⟩ := t.settled
  · refine ⟨?_, ?_, ?_⟩
    · simp [ht.shape, ht.build]
    · intro e failed
      cases ht.build.symm.trans failed
    · intro k' n' shape
      cases ht.shape.symm.trans shape
      refine ⟨_, ht.build, RowMatrix.shape_ofMatrix M, ?_, fun x length => ?_⟩
      · rw [AffineMap.ofMatrix, Tensor.shape, List.length_ofFn]
      · obtain ⟨x, rfl⟩ := exists_ofFn length
        exact ⟨_, List.length_ofFn, AffineMap.value_ofMatrix M q x, ht.evaluate x⟩
  · refine ⟨⟨fun _ => ⟨e, failed⟩, fun _ => misfit⟩, ?_, ?_⟩
    · intro e' failed'
      cases failed.symm.trans failed'
      exact kind
    · intro k n shape
      cases misfit.symm.trans shape

/-- A map of three inputs with offsets. -/
def offsetPair : AffineMap ℤ := ⟨.ofRows 3 [[1, 0, 2], [0, 1, 1]] (by decide), [5, 7], rfl⟩

/-- A layout of three entries, the last two of which are one variable. -/
def jointLayout : VariableLayout := ⟨[("base", 1), ("arm", 2)], by decide⟩

/-- Three times a variable without the pair, above the sum of the outputs of the pair. -/
def pairedArm (arm : AffineMap ℤ) : AffineTerm ℤ :=
  .pile (.add (.scale 3 (.leaf arm)) (.neg (.leaf offsetPair)))
    (.multiply (.matrix (.ofRows 2 [[1, 1]] (by decide)))
      (.sub (.leaf offsetPair) (.leaf (.zero 2 3))))

/-- All operations at once, and a sum of maps with different outputs. -/
theorem pairedArm_evaluates : ∃ arm e, jointLayout.select "arm" = .ok arm ∧
    (pairedArm arm).build = .ok e ∧ (Tensor.matrix e.matrix).shape = [3, 3] ∧
    e.value (.vector [1, 2, 3]) = .ok (.vector [-6, -3, 24]) ∧
    (∃ error, (add (.leaf offsetPair) (.leaf (.zero 1 3))).build = .error error ∧
      error.kind = some .dimensionMismatch) := by
  let arm : AffineMap ℤ := .linear (.ofFn 2 3 fun i j => if j = 1 + i then 1 else 0)
  obtain ⟨-, -, built⟩ := build_evaluates (pairedArm arm)
  obtain ⟨e, made, shape, -, values⟩ := built 3 3 rfl
  obtain ⟨v, -, value, evaluated⟩ := values [1, 2, 3] rfl
  have leaves : (pairedArm arm).evaluate (.vector [1, 2, 3]) = .ok (.vector [-6, -3, 24]) := rfl
  cases leaves.symm.trans evaluated
  obtain ⟨misfit, kind, -⟩ := build_evaluates (add (.leaf offsetPair) (.leaf (.zero 1 3)))
  obtain ⟨error, refused⟩ := misfit.1 rfl
  exact ⟨arm, e, rfl, made, shape, value, error, refused, kind error refused⟩

end Trees

end AffineTerm

end ControlHierarchy
