import ControlHierarchy.Proofs.Tensor.Identity

/-!
# How arrays are refused

An array without dimensions has no length, which is noticed as a fault. Piling
has a name for most that can be wrong with two arrays. The exception are arrays
of three or more dimensions that agree in the second one and in their number,
but not in all after that: they clash (`Tensor.Clash`), and end in a fault as
well (`Tensor.kind_of_pile`). So does any product that is refused
(`Tensor.kind_of_product`). Where arrays are merged one after another, the first
one that does not fit decides the outcome (`FirstWithout`).
-/

namespace ControlHierarchy

/-- The first item of a list that lacks a property. -/
def FirstWithout {β : Type} (good : β → Prop) (items : List β) (b : β) : Prop :=
  ∃ ready more, items = ready ++ b :: more ∧ (∀ c ∈ ready, good c) ∧ ¬good b

section FirstWithout

variable {β γ : Type} {good : β → Prop} {items : List β} {b : β}

theorem exists_firstWithout (h : ¬∀ b ∈ items, good b) : ∃ b, FirstWithout good items b := by
  induction items with
  | nil => exact absurd (List.forall_mem_nil _) h
  | cons c items ih =>
    by_cases here : good c
    · obtain ⟨b, ready, more, rfl, before, lacks⟩ :=
        ih fun others => h (List.forall_mem_cons.2 ⟨here, others⟩)
      exact ⟨b, c :: ready, more, rfl, List.forall_mem_cons.2 ⟨here, before⟩, lacks⟩
    · exact ⟨c, [], items, rfl, List.forall_mem_nil _, here⟩

theorem FirstWithout.mem (h : FirstWithout good items b) : b ∈ items := by
  obtain ⟨ready, more, rfl, -⟩ := h
  simp

theorem FirstWithout.lacks (h : FirstWithout good items b) : ¬good b := by
  obtain ⟨_, _, -, -, lacks⟩ := h
  exact lacks

theorem FirstWithout.map {good : γ → Prop} (f : β → γ)
    (h : FirstWithout (fun c => good (f c)) items b) : FirstWithout good (items.map f) (f b) := by
  obtain ⟨ready, more, rfl, before, lacks⟩ := h
  exact ⟨ready.map f, more.map f, by simp, List.forall_mem_map.2 before, lacks⟩

theorem firstWithout_singleton (lacks : ¬good b) : FirstWithout good [b] b :=
  ⟨[], [], rfl, List.forall_mem_nil _, lacks⟩

end FirstWithout

variable {α : Type}

namespace Tensor

variable {t u r : Tensor α}

theorem size_of_rank_zero (h : t.rank = 0) : t.size = 1 := by
  rw [size, List.length_eq_zero_iff.1 h, Index.volume_nil]

/-- Only an array without dimensions has no length. -/
theorem leading_eq_error {e : Error} (h : t.leading = .error e) : t.rank = 0 ∧ e.kind = none := by
  cases t with
  | scalar a =>
    cases h
    exact ⟨rfl, rfl⟩
  | _ => cases h

theorem rank_ne_zero_of_leading {m : Nat} (h : t.leading = .ok m) : t.rank ≠ 0 := by
  intro zero
  rw [Tensor.leading, axis, List.length_eq_zero_iff.1 zero] at h
  cases h

theorem rank_ne_zero_of_missing_or_leading {m : Nat} (h : t.size = 0 ∨ t.leading = .ok m) :
    t.rank ≠ 0 := by
  intro zero
  rcases h with none | leading
  · rw [size_of_rank_zero zero] at none
    cases none
  · exact rank_ne_zero_of_leading leading zero

/-- Two arrays of three or more dimensions that differ beyond the second one. -/
def Clash {β : Type} (t : Tensor β) (u : Tensor α) : Prop :=
  ∃ m k l inner inner', t.shape = m :: l :: inner ∧ u.shape = k :: l :: inner' ∧
    inner.length = inner'.length ∧ inner ≠ inner'

theorem not_clash_of_rank (h : t.rank ≤ 2) : ¬t.Clash u := by
  rintro ⟨m, k, l, inner, inner', shape, -, same, differ⟩
  rw [rank, shape, List.length_cons, List.length_cons] at h
  have empty : inner.length = 0 := by omega
  rw [List.length_eq_zero_iff.1 empty] at same differ
  exact differ (List.length_eq_zero_iff.1 same.symm).symm

theorem not_clash_of_shape (h : t.shape = u.shape) : ¬t.Clash u := by
  rintro ⟨m, k, l, inner, inner', shape, shape', -, differ⟩
  rw [shape, shape'] at h
  simp only [List.cons.injEq, true_and] at h
  exact differ h.2

@[simp] theorem clash_map {β : Type} (g : α → β) {t : Tensor β} :
    t.Clash (u.map g) ↔ t.Clash u := by
  simp [Clash]

theorem Clash.rank_eq (h : t.Clash u) : t.rank = u.rank := by
  obtain ⟨m, k, l, inner, inner', shape, shape', same, -⟩ := h
  simp [rank, shape, shape', same]

theorem kind_of_appendBlocks {b c : Block α} {e : Error} (failed : appendBlocks b c = .error e)
    (ranks : (block b).rank = (block c).rank) :
    (block b).Clash (block c) ∧ e.kind = none ∨
      ¬(block b).Clash (block c) ∧ e.kind = some .dimensionMismatch := by
  unfold appendBlocks at failed
  split at failed
  · next heights =>
    cases failed
    refine .inr ⟨?_, rfl⟩
    rintro ⟨m, k, l, inner, inner', shape, shape', -⟩
    simp only [Tensor.shape, Block.shape, List.cons.injEq] at shape shape'
    exact heights (shape.2.1.trans shape'.2.1.symm)
  · next heights =>
    rw [not_not] at heights
    split at failed
    · cases failed
    · next differ =>
      cases failed
      refine .inl ⟨⟨b.depth, c.depth, b.height, b.width :: b.inner, c.width :: c.inner, rfl, ?_, ?_,
        ?_⟩, rfl⟩
      · rw [heights]
        rfl
      · simpa [rank, shape, Block.shape] using ranks
      · intro same
        obtain ⟨width, inner⟩ := List.cons.inj same
        exact differ ⟨heights, width, inner⟩

/-- Piling fails for a reason that has a name, unless the arrays clash. -/
theorem kind_of_pile {e : Error} (failed : t.pile u = .error e) (dimensions : t.rank ≠ 0) :
    t.Clash u ∧ e.kind = none ∨ ¬t.Clash u ∧ e.kind = some .dimensionMismatch := by
  unfold pile at failed
  split at failed
  · next ranks =>
    cases failed
    exact .inr ⟨fun clash => ranks clash.rank_eq, rfl⟩
  · next ranks =>
    rw [not_not] at ranks
    split at failed
    · cases failed
    · split at failed
      · cases failed
      · cases failed
        exact .inr ⟨not_clash_of_rank (Nat.le_refl 2), rfl⟩
    · exact kind_of_appendBlocks failed ranks
    · -- arrays of different ranks, and numbers
      cases t <;> cases u <;> simp_all [rank, shape, Block.shape]

theorem kind_of_pile_of_rank {e : Error} (failed : t.pile u = .error e) (dimensions : t.rank ≠ 0)
    (few : t.rank ≤ 2) : e.kind = some .dimensionMismatch := by
  obtain ⟨clash, -⟩ | ⟨-, kind⟩ := kind_of_pile failed dimensions
  · exact absurd clash (not_clash_of_rank few)
  · exact kind

theorem not_clash_of_pile (h : t.pile u = .ok r) : ¬t.Clash u := by
  obtain ⟨m, k, inner, shape, shape'⟩ := shapes_of_pile h
  rintro ⟨m', k', l, rest, rest', ht, hu, -, differ⟩
  cases shape.symm.trans ht
  cases shape'.symm.trans hu
  exact differ rfl

/-! ### Products with a square matrix -/

theorem ofShape?_isSome {shape : List Nat} {entries : List α}
    (h : entries.length = Index.volume shape) : (ofShape? shape entries).isSome := by
  rcases shape with _ | ⟨d, _ | ⟨height, _ | ⟨width, inner⟩⟩⟩
  · obtain ⟨a, rfl⟩ := List.length_eq_one_iff.1 h
    rfl
  all_goals
    unfold ofShape?
    rw [dif_pos h]
    rfl

/-- Entries are only computed if there is room for them. -/
theorem tabulate_succeeds_iff {shape : List Nat} {f : List Nat → α} :
    (∃ r, tabulate shape f = .ok r) ↔ checkShape shape = .ok () := by
  unfold tabulate
  constructor
  · rintro ⟨r, h⟩
    exact (then_eq_ok.1 h).1
  · intro room
    have full : (generate? shape f).isSome :=
      ofShape?_isSome (by rw [List.length_map, Index.length_positions])
    obtain ⟨r, made⟩ := Option.isSome_iff_exists.1 full
    rw [room, ok_bind, made]
    exact ⟨r, rfl⟩

theorem kind_of_checkShape {shape : List Nat} {e : Error} (failed : checkShape shape = .error e) :
    e.kind = none := by
  unfold checkShape at failed
  split at failed
  · cases failed
    rfl
  · split at failed
    · cases failed
      rfl
    · cases failed

theorem kind_of_tabulate {shape : List Nat} {f : List Nat → α} {e : Error}
    (failed : tabulate shape f = .error e) : e.kind = none := by
  obtain failed | ⟨_, -, failed⟩ := bind_eq_error.1 failed
  · exact kind_of_checkShape failed
  · split at failed
    · cases failed
    · cases failed
      rfl

/-- A square matrix with `k` rows has a product with an array: the array has `k`
rows, the last dimension but one, and there is room for as large a product. -/
def IsFactor (k : Nat) (t : Tensor α) : Prop :=
  (∃ outer columns, factorShape? false t.shape = some (outer, k, columns)) ∧
    (t.rank ≤ 2 ∨ checkShape t.shape = .ok ())

theorem isFactor_vector {k : Nat} {v : List α} : (vector v).IsFactor k ↔ v.length = k := by
  simp [IsFactor, factorShape?, shape, rank]

theorem isFactor_matrix {k : Nat} {m : RowMatrix α} : (matrix m).IsFactor k ↔ m.height = k := by
  simp [IsFactor, factorShape?, shape, rank]

theorem eq_of_factorShape? {onLeft : Bool} {shape outer : List Nat} {rows columns : Nat}
    (dimensions : 2 ≤ shape.length) (h : factorShape? onLeft shape = some (outer, rows, columns)) :
    shape = outer ++ [rows] ++ [columns] := by
  rw [← List.reverse_inj]
  unfold factorShape? at h
  split at h
  · cases h
  · next single =>
    rw [← List.length_reverse, single] at dimensions
    exact absurd dimensions (by simp)
  · next cut =>
    cases h
    rw [cut]
    simp

theorem factorShape?_block (b : Block α) :
    ∃ outer rows columns, factorShape? false b.shape = some (outer, rows, columns) := by
  unfold factorShape?
  split
  · next none => simp [Block.shape] at none
  · next single =>
    have dimensions := congrArg List.length single
    simp [Block.shape] at dimensions
  · exact ⟨_, _, _, rfl⟩

section Products

variable [Zero α] [Add α] [Mul α] {w : RowMatrix α} {b : Block α}

/-- A product with a block is computed entry by entry, if the rows fit. -/
theorem product_block_eq {outer : List Nat} {rows columns : Nat}
    (split : factorShape? false b.shape = some (outer, rows, columns)) :
    ∃ f, (matrix w).product (.block b) =
      if w.width = rows then tabulate (outer ++ [w.height] ++ [columns]) f
      else .error (.fault .badValue) := by
  have left : factorShape? true (matrix w).shape = some ([], w.height, w.width) := rfl
  have right : factorShape? false (Tensor.block b).shape = some (outer, rows, columns) := split
  have two : (matrix w).rank ≠ 1 := by simp [rank, Tensor.shape]
  have many : (Tensor.block b).rank ≠ 1 := by simp [rank, Tensor.shape, Block.shape]
  rw [product_block]
  unfold stackedProduct
  simp only [left, right, join_nil, if_neg two, if_neg many]
  exact ⟨_, rfl⟩

/-- Whether a square matrix has a product with an array is a matter of its shape. -/
theorem product_succeeds_iff {t : Tensor α} (square : w.height = w.width) :
    (∃ r, (matrix w).product t = .ok r) ↔ t.IsFactor w.width := by
  cases t with
  | scalar a => simp [product, IsFactor, factorShape?, shape]
  | vector v =>
    rw [product_vector, isFactor_vector, ite_succeeds_iff]
    exact eq_comm
  | matrix m =>
    rw [product_matrix, isFactor_matrix, ite_succeeds_iff]
    exact eq_comm
  | block b =>
    obtain ⟨outer, rows, columns, split⟩ := factorShape?_block b
    obtain ⟨f, computed⟩ := product_block_eq (w := w) split
    have shape : b.shape = outer ++ [rows] ++ [columns] :=
      eq_of_factorShape? (by simp [Block.shape]) split
    have many : ¬(Tensor.block b).rank ≤ 2 := by simp [rank, Tensor.shape, Block.shape]
    rw [computed]
    constructor
    · rintro ⟨r, h⟩
      split at h
      · next same =>
        rw [square, same, ← shape] at h
        exact ⟨⟨outer, columns, same ▸ split⟩, .inr (tabulate_succeeds_iff.1 ⟨r, h⟩)⟩
      · cases h
    · rintro ⟨⟨outer', columns', split'⟩, room⟩
      cases split.symm.trans split'
      rw [if_pos rfl, square, ← shape]
      exact tabulate_succeeds_iff.2 (room.resolve_left many)

/-- Arrays that have no product have none for a reason without a name. -/
theorem kind_of_product {t : Tensor α} {e : Error} (failed : (matrix w).product t = .error e) :
    e.kind = none := by
  cases t with
  | scalar a =>
    cases failed
    rfl
  | vector v =>
    rw [product_vector] at failed
    split at failed
    · cases failed
    · cases failed
      rfl
  | matrix m =>
    rw [product_matrix] at failed
    split at failed
    · cases failed
    · cases failed
      rfl
  | block b =>
    obtain ⟨outer, rows, columns, split⟩ := factorShape?_block b
    obtain ⟨f, computed⟩ := product_block_eq (w := w) split
    rw [computed] at failed
    split at failed
    · exact kind_of_tabulate failed
    · cases failed
      rfl

/-- A product is a matrix when the other factor is one with the right rows. -/
theorem product_isMatrix_iff {t : Tensor α} {n : Nat} :
    (∃ k, (matrix w).product t = .ok (.matrix k) ∧ k.width = n) ↔ t.shape = [w.width, n] := by
  constructor
  · rintro ⟨k, product, rfl⟩
    cases t with
    | scalar a => cases product
    | vector v =>
      rw [product_vector] at product
      split at product <;> cases product
    | matrix m =>
      rw [product_matrix] at product
      split at product
      · next same =>
        cases product
        rw [shape, same, RowMatrix.width_mul]
      · cases product
    | block b => exact absurd (rank_product_block product) (by simp [rank, shape])
  · intro fits
    obtain ⟨m, rfl, height, width⟩ := exists_matrix_of_shape fits
    exact ⟨w.mul m, if_pos height.symm, width⟩

/-- A product is a vector when the other factor is one with the right entries. -/
theorem product_isVector_iff {t : Tensor α} :
    (∃ u, (matrix w).product t = .ok (.vector u)) ↔ t.shape = [w.width] := by
  constructor
  · rintro ⟨u, product⟩
    cases t with
    | scalar a => cases product
    | vector v =>
      rw [product_vector] at product
      split at product
      · next same => rw [shape, same]
      · cases product
    | matrix m =>
      rw [product_matrix] at product
      split at product <;> cases product
    | block b => exact absurd (rank_product_block product) (by simp [rank, shape])
  · intro fits
    obtain ⟨v, rfl, length⟩ := exists_vector_of_shape fits
    exact ⟨w.mulVec v, if_pos length.symm⟩

theorem isFactor_of_product {t r : Tensor α} (square : w.height = w.width)
    (product : (matrix w).product t = .ok r) : t.IsFactor w.width :=
  (product_succeeds_iff square).1 ⟨r, product⟩

theorem not_isFactor_of_product {t : Tensor α} {e : Error} (square : w.height = w.width)
    (failed : (matrix w).product t = .error e) : ¬t.IsFactor w.width := by
  intro factor
  obtain ⟨r, product⟩ := (product_succeeds_iff square).2 factor
  cases product.symm.trans failed

/-- Only a matrix of the right shape is piled on a matrix after it was multiplied. -/
theorem shape_of_pileProduct {m : RowMatrix α} {t r : Tensor α}
    (run : (matrix w).product t >>= (matrix m).pile = .ok r) : t.shape = [w.width, m.width] := by
  obtain ⟨weighted, product, piled⟩ := bind_eq_ok.1 run
  obtain ⟨l, width, rfl, -⟩ := pile_matrix_eq_ok.1 piled
  exact product_isMatrix_iff.1 ⟨l, product, width.symm⟩

/-- To pile a product on a matrix fails without a name when there is no product,
and with one when it is no matrix of the right width. -/
theorem kind_of_pileProduct {m : RowMatrix α} {t : Tensor α} {e : Error}
    (square : w.height = w.width) (failed : (matrix w).product t >>= (matrix m).pile = .error e) :
    ¬t.IsFactor w.width ∧ e.kind = none ∨
      t.IsFactor w.width ∧ t.shape ≠ [w.width, m.width] ∧ e.kind = some .dimensionMismatch := by
  obtain failed | ⟨weighted, product, failed⟩ := bind_eq_error.1 failed
  · exact .inl ⟨not_isFactor_of_product square failed, kind_of_product failed⟩
  · refine .inr ⟨isFactor_of_product square product, ?_, kind_of_pile_of_rank failed ?_ ?_⟩
    · intro shape
      obtain ⟨l, product', width⟩ := product_isMatrix_iff.2 shape
      cases product.symm.trans product'
      cases (pile_matrix width.symm).symm.trans failed
    · simp [rank, shape]
    · simp [rank, shape]

end Products

end Tensor

end ControlHierarchy
