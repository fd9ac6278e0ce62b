import ControlHierarchy.Proofs.Tensor.Shape
import Mathlib.Algebra.BigOperators.Group.List.Basic
import Mathlib.Algebra.Ring.Defs
import Mathlib.Data.List.GetD

/-!
# Products with the identity

A weight that was never set is an identity matrix. A product with it gives back
the other factor, as far as entries are read as numbers that a factor of one, a
factor of zero and an added zero do not spoil (`RowMatrix.Selects`). Exact
numbers are read as they are (`RowMatrix.selects_exact`).
-/

namespace ControlHierarchy

variable {α : Type}

namespace RowMatrix

/-- Row after row, the places below a height are those of each row in turn. -/
theorem map_range_mul (height width : Nat) (f : Nat → Nat → α) :
    (List.range (height * width)).map (fun place => f (place / width) (place % width)) =
      ((List.range height).map fun i => (List.range width).map (f i)).flatten := by
  induction height with
  | zero => rw [Nat.zero_mul]; rfl
  | succ height ih =>
    have last :
        (List.range width).map
          ((fun place => f (place / width) (place % width)) ∘ (height * width + ·)) =
        (List.range width).map (f height) := by
      refine List.map_congr_left fun j hj => ?_
      have inside : j < width := List.mem_range.1 hj
      have row : (height * width + j) / width = height := by
        rw [Nat.mul_comm, Nat.mul_add_div (by omega), Nat.div_eq_of_lt inside, Nat.add_zero]
      have column : (height * width + j) % width = j := by
        rw [Nat.mul_comm, Nat.mul_add_mod, Nat.mod_eq_of_lt inside]
      rw [Function.comp_apply, row, column]
    rw [Nat.succ_mul, List.range_add, List.map_append, ih, List.map_map, last, List.range_succ,
      List.map_append, List.flatten_append]
    simp

/-- The rows of a matrix that is given by its entries. -/
theorem rows_ofFn (height width : Nat) (f : Nat → Nat → α) :
    (ofFn height width f).rows = (List.range height).map fun i => (List.range width).map (f i) := by
  have rectangular : ∀ r ∈ (List.range height).map fun i => (List.range width).map (f i), r.length =
      width := by simp
  have cut := pieces_flatten rectangular
  rw [List.length_map, List.length_range, ← map_range_mul] at cut
  exact cut

theorem rows_identity [Zero α] [One α] (n : Nat) :
    (identity n : RowMatrix α).rows = (List.range n).map fun i => (List.range n).map fun j => if i =
    j then 1 else 0 :=
  rows_ofFn n n _

/-- The entries in a window of a list, one after the other. -/
theorem map_range_getD {β : Type} (f : α → β) (default : α) {v : List α} {start length : Nat}
    (inside : start + length ≤ v.length) :
    ((List.range length).map fun i => f (v.getD (start + i) default)) =
      ((v.drop start).take length).map f := by
  refine List.ext_getElem (by simp; omega) fun i hi _ => ?_
  rw [List.length_map, List.length_range] at hi
  rw [List.getElem_map, List.getElem_range, List.getElem_map, List.getElem_take,
    List.getElem_drop, List.getD_eq_getElem _ _ (by omega)]

theorem mem_entries_of_mem_rows {m : RowMatrix α} {r : List α} {a : α} (hr : r ∈ m.rows)
    (ha : a ∈ r) : a ∈ m.entries := by
  rw [← flatten_pieces m.length_entries]
  exact List.mem_flatten_of_mem hr ha

/-- Entries are read as numbers. Of an entry, a factor of one leaves the number
and a factor of zero leaves nothing, and to add nothing changes no number. -/
structure Selects {β : Type} [Zero α] [One α] [Add α] [Mul α] (number : α → β)
    (finite : α → Prop) : Prop where
  one_mul : ∀ a, finite a → number (1 * a) = number a
  zero_mul : ∀ a, finite a → number (0 * a) = number 0
  zero_add : ∀ z a, number z = number 0 → number (z + a) = number a
  add_zero : ∀ z a, number z = number 0 → number (a + z) = number a

namespace Selects

variable {β : Type} [Zero α] [One α] [Add α] [Mul α] {number : α → β} {finite : α → Prop}

theorem foldl_zeros (h : Selects number finite) {zeros : List α}
    (none : ∀ z ∈ zeros, number z = number 0) (a : α) :
    number (zeros.foldl (· + ·) a) = number a := by
  induction zeros generalizing a with
  | nil => rfl
  | cons z zeros ih =>
    rw [List.forall_mem_cons] at none
    rw [List.foldl_cons, ih none.2, h.add_zero z a none.1]

theorem foldl_unit (h : Selects number finite) {v : List α} (entries : ∀ a ∈ v, finite a) (i : Nat)
    {start : α} (none : number start = number 0) :
    number ((List.zipWith (· * ·) ((List.range v.length).map fun j => if i = j then 1 else 0)
      v).foldl (· + ·) start) = number (v.getD i 0) := by
  induction v generalizing i start with
  | nil => exact none
  | cons a v ih =>
    rw [List.forall_mem_cons] at entries
    rw [List.length_cons, List.range_succ_eq_map, List.map_cons, List.map_map,
      List.zipWith_cons_cons, List.foldl_cons]
    cases i with
    | zero =>
      -- behind the one there are zeros only
      rw [h.foldl_zeros, h.zero_add _ _ none, if_pos rfl, h.one_mul a entries.1,
        List.getD_cons_zero]
      intro z hz
      obtain ⟨j, inside, rfl⟩ := List.mem_iff_getElem.1 hz
      simp only [List.getElem_zipWith, List.getElem_map, Function.comp_apply]
      exact h.zero_mul _ (entries.2 _ (List.getElem_mem _))
    | succ i =>
      have empty : number (start + 0 * a) = number 0 := by
        rw [h.zero_add _ _ none, h.zero_mul a entries.1]
      rw [List.getD_cons_succ, if_neg (Nat.succ_ne_zero i), ← ih entries.2 i empty]
      simp [Function.comp_def]

/-- A row of the identity picks out one entry. -/
theorem dot_unit (h : Selects number finite) {v : List α} (entries : ∀ a ∈ v, finite a) (i : Nat) :
    number (dot ((List.range v.length).map fun j => if i = j then 1 else 0) v) =
      number (v.getD i 0) :=
  h.foldl_unit entries i rfl

/-- A matrix of such rows picks out as many entries. -/
theorem mulVec_units (h : Selects number finite) {v : List α} (entries : ∀ a ∈ v, finite a)
    (height : Nat) (f : Nat → Nat) :
    ((ofFn height v.length fun i j => if f i = j then 1 else 0).mulVec v).map number =
      (List.range height).map fun i => number (v.getD (f i) 0) := by
  rw [mulVec, rows_ofFn, List.map_map, List.map_map]
  exact List.map_congr_left fun i _ => h.dot_unit entries (f i)

theorem identity_mulVec (h : Selects number finite) {v : List α} (entries : ∀ a ∈ v, finite a) :
    ((identity v.length).mulVec v).map number = v.map number := by
  refine (h.mulVec_units entries v.length id).trans ?_
  have whole := map_range_getD number 0 (Nat.le_of_eq (Nat.zero_add v.length))
  simpa using whole

theorem identity_mul (h : Selects number finite) {m : RowMatrix α}
    (entries : ∀ a ∈ m.entries, finite a) :
    ((identity m.height).mul m).map number = m.map number := by
  refine ext rfl ?_
  rw [rows_map, rows_map, rows_mul, products, rows_identity, List.map_map, List.map_map]
  refine List.ext_getElem (by simp) fun i _ hi => ?_
  rw [List.length_map] at hi
  have width : m.rows[i].length = m.width := m.length_of_mem_rows _ (List.getElem_mem hi)
  rw [List.getElem_map, List.getElem_range, List.getElem_map, Function.comp_apply,
    Function.comp_apply, columns, List.map_map, List.map_map]
  refine List.ext_getElem (by simp [width]) fun j hj _ => ?_
  rw [List.length_map, List.length_range] at hj
  have inside : ∀ a ∈ m.rows.map (·.getD j 0), finite a := by
    intro a ha
    obtain ⟨r, hr, rfl⟩ := List.mem_map.1 ha
    have column : j < r.length := by rwa [m.length_of_mem_rows r hr]
    rw [List.getD_eq_getElem _ _ column]
    exact entries _ (mem_entries_of_mem_rows hr (List.getElem_mem column))
  have picked := h.dot_unit inside i
  rw [List.length_map, length_rows, List.getD_eq_getElem _ _ (by simpa using hi),
    List.getElem_map, List.getD_eq_getElem _ _ (by rwa [width])] at picked
  rw [List.getElem_map, List.getElem_range, List.getElem_map]
  exact picked

end Selects

variable [Semiring α]

theorem selects_exact : Selects (id : α → α) fun _ => True where
  one_mul a _ := one_mul a
  zero_mul a _ := zero_mul a
  zero_add z a none := by rw [show z = 0 from none, zero_add]
  add_zero z a none := by rw [show z = 0 from none, add_zero]

theorem dot_cons (a b : α) (u v : List α) : dot (a :: u) (b :: v) = a * b + dot u v := by
  rw [dot, dot, ← List.sum_eq_foldl, ← List.sum_eq_foldl, List.zipWith_cons_cons, List.sum_cons]

theorem identity_mulVec (v : List α) : (identity v.length).mulVec v = v := by
  simpa using selects_exact.identity_mulVec (v := v) fun _ _ => trivial

theorem identity_mul (m : RowMatrix α) : (identity m.height).mul m = m := by
  have same := selects_exact.identity_mul (m := m) fun _ _ => trivial
  have kept (k : RowMatrix α) : k.map id = k := ext rfl (by simp)
  rwa [kept, kept] at same

end RowMatrix

namespace Tensor

variable [Zero α] [Add α] [Mul α]

theorem product_matrix (w m : RowMatrix α) :
    (matrix w).product (.matrix m) = if w.width = m.height then .ok (.matrix (w.mul m))
    else .error (.fault .badValue) :=
  rfl

theorem product_vector (w : RowMatrix α) (v : List α) :
    (matrix w).product (.vector v) = if w.width = v.length then .ok (.vector (w.mulVec v))
    else .error (.fault .badValue) :=
  rfl

theorem product_block (w : RowMatrix α) (b : Block α) :
    (matrix w).product (.block b) = stackedProduct (.matrix w) (.block b) :=
  rfl

omit [Zero α] [Add α] [Mul α] in
theorem shape_of_ofShape {shape : List Nat} {entries : List α} {t : Tensor α}
    (h : ofShape? shape entries = some t) :
    t.shape = shape := by
  unfold ofShape? at h
  split at h
  · next length =>
    split at h
    · cases h
      rfl
    · cases h
    · cases h
      simpa [Tensor.shape] using length
    · cases h
      rfl
    · cases h
      rfl
  · cases h

omit [Zero α] [Add α] [Mul α] in
theorem shape_of_tabulate {shape : List Nat} {f : List Nat → α} {t : Tensor α}
    (h : tabulate shape f = .ok t) :
    t.shape = shape := by
  unfold tabulate at h
  obtain ⟨-, h⟩ := then_eq_ok.1 h
  split at h
  · next made =>
    cases h
    exact shape_of_ofShape made
  · cases h

omit [Zero α] [Add α] [Mul α] in
theorem length_outer {onLeft : Bool} {shape outer : List Nat} {rows columns : Nat}
    (h : factorShape? onLeft shape = some (outer, rows, columns)) :
    shape.length ≤ outer.length + 2 := by
  rw [← List.length_reverse]
  unfold factorShape? at h
  split at h
  · cases h
  · next d single => simp [single]
  · next d e rest cut =>
    cases h
    simp [cut]

theorem join_nil (shape : List Nat) : Index.join [] shape = some shape := by
  rw [Index.join, List.reverse_nil, Index.joinReversed, Option.map_some, List.reverse_reverse]

/-- A product with a block is no matrix and no vector. -/
theorem rank_product_block {w : RowMatrix α} {b : Block α} {t : Tensor α}
    (h : (matrix w).product (.block b) = .ok t) :
    3 ≤ t.rank := by
  rw [product_block] at h
  unfold stackedProduct at h
  split at h
  · next outer rows inner outer' inner' columns left right =>
    cases left
    have more : 3 ≤ outer'.length + 2 := by
      refine Nat.le_trans ?_ (length_outer right)
      simp [Tensor.shape, Block.shape]
    rw [List.reverse_nil, join_nil] at h
    split at h
    · next shared joined =>
      cases joined
      split at h
      · have two : (matrix w).rank ≠ 1 := by simp [rank, Tensor.shape]
        have many : (Tensor.block b).rank ≠ 1 := by simp [rank, Tensor.shape, Block.shape]
        rw [rank, shape_of_tabulate h, if_neg two, if_neg many]
        simpa using more
      · cases h
    · cases h
  · cases h

/-- A matrix that comes from a product has the rows of the left factor. -/
theorem height_of_product {w k : RowMatrix α} {t : Tensor α}
    (h : (matrix w).product t = .ok (.matrix k)) :
    k.height = w.height := by
  cases t with
  | scalar a => cases h
  | vector v =>
    rw [product_vector] at h
    split at h <;> cases h
  | matrix m =>
    rw [product_matrix] at h
    split at h <;> cases h
    rfl
  | block b => exact absurd (rank_product_block h) (by simp [rank, Tensor.shape])

theorem length_of_product {w : RowMatrix α} {v : List α} {t : Tensor α}
    (h : (matrix w).product t = .ok (.vector v)) :
    v.length = w.height := by
  cases t with
  | scalar a => cases h
  | vector u =>
    rw [product_vector] at h
    split at h <;> cases h
    exact w.length_mulVec u
  | matrix m =>
    rw [product_matrix] at h
    split at h <;> cases h
  | block b => exact absurd (rank_product_block h) (by simp [rank, Tensor.shape])

end Tensor

end ControlHierarchy
