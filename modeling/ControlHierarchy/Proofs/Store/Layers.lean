import ControlHierarchy.Proofs.Double.Selecting
import ControlHierarchy.Proofs.Store.Faults

/-!
# The rows of an aggregate in layers

An aggregate of tasks consists of layers, one for each part and in their order.
The layer of a part is the product of its weight with its rows and, times the
gain, with its reference (`TaskBody.Layer`); it begins below as many rows as the
parts before have together (`TaskRows.layer_of_merge`). An aggregate can be
merged when each part fits by itself and a weight that was set on the aggregate
has as many rows as all parts together (`MergedTask.regenerate_iff_fits`). A layer of
finite doubles is, as numbers, the rows of the part themselves when the weight
was never set and the gain is one (`TaskBody.Layer.plain`).
-/

namespace ControlHierarchy

variable {α : Type}

/-- The number of rows of a task, the length of its matrix. -/
def TaskBody.count (t : TaskBody α) : ℕ := t.matrix.shape.headD 0

theorem TaskBody.count_of_rows {t : TaskBody α} {k : ℕ} (h : t.rows = .ok k) : t.count = k := by
  rw [rows, Tensor.leading, Tensor.axis] at h
  rw [count]
  cases shape : t.matrix.shape with
  | nil =>
    rw [shape] at h
    cases h
  | cons d dims =>
    rw [shape] at h
    exact Except.ok.inj h

/-- The number of rows that tasks have together. -/
def Store.rowsOf (s : Store α) (ts : List TaskRef) : ℕ :=
  ((ts.map s.taskBody).map TaskBody.count).sum

/-- What a task with `n` columns is multiplied of in a merge: its weight in force,
its matrix, its reference and its gain. -/
structure TaskBody.Layer [Zero α] [One α] (t : TaskBody α) (n : ℕ) (w a : RowMatrix α)
    (b : List α) (g : α) : Prop where
  weight : t.weightInForce = .ok (.matrix w)
  matrix : t.matrix = .matrix a
  reference : t.reference = .vector b
  gain : t.gain = .scalar g
  height : w.height = a.height
  square : w.width = a.height
  length : b.length = a.height
  width : a.width = n

section Layers

variable [Zero α] [One α]

namespace TaskBody

variable {t : TaskBody α} {n : ℕ} {w a : RowMatrix α} {b : List α} {g : α}

theorem Fits.exists_layer (fits : t.Fits n) (gain : t.gain = .scalar g) :
    ∃ w a b, t.Layer n w a b g := by
  obtain ⟨k, matrix, reference, weight⟩ := fits.shapes
  obtain ⟨_, force, square⟩ := weightInForce_of_leading (Tensor.leading_of_shape matrix)
  obtain ⟨a, given, rfl, width⟩ := Tensor.exists_matrix_of_shape matrix
  obtain ⟨b, target, length⟩ := Tensor.exists_vector_of_shape reference
  obtain ⟨w, rfl, height, columns⟩ := Tensor.exists_matrix_of_shape (square.2 weight)
  exact ⟨w, a, b, force, given, target, gain, height, columns, length, width⟩

namespace Layer

theorem rows_eq_ok (h : t.Layer n w a b g) : t.rows = .ok a.height := by
  rw [rows, h.matrix, Tensor.leading_matrix]

theorem count_eq (h : t.Layer n w a b g) : t.count = a.height := count_of_rows h.rows_eq_ok

/-- A weight that was never set is an identity. -/
theorem weight_eq (h : t.Layer n w a b g) (unset : t.weight = none) : w = .identity a.height := by
  have force := h.weight
  rw [weightInForce, unset, h.rows_eq_ok] at force
  exact (Tensor.matrix.inj (Except.ok.inj force)).symm

theorem weighted_eq_ok [Add α] [Mul α] (h : t.Layer n w a b g) :
    t.weighted = .ok ⟨.matrix (w.mul a), .vector ((w.mulVec b).map (g * ·))⟩ := by
  have square : (Tensor.matrix w).shape = [a.height, a.height] := by
    rw [Tensor.shape, h.height, h.square]
  rw [weighted, h.weight, ok_bind, h.rows_eq_ok, ok_bind]
  refine throw_then.2 ⟨not_not.2 square, ?_⟩
  rw [h.matrix, Tensor.product_matrix, if_pos h.square, ok_bind, h.reference,
    Tensor.product_vector, if_pos (h.square.trans h.length.symm), ok_bind, h.gain]
  rfl

/-- With the identity as weight and a gain of one, a layer of finite doubles has
the numbers of the part. -/
theorem plain {t : TaskBody Float} {w a : RowMatrix Float} {b : List Float} {g : Float}
    (h : t.Layer n w a b g) (unset : t.weight = none) (unit : g = 1)
    (entries : ∀ x ∈ a.entries, Double.IsFinite x) (targets : ∀ x ∈ b, Double.IsFinite x) :
    (w.mul a).map Double.place = a.map Double.place ∧
      ((w.mulVec b).map (g * ·)).map Double.place = b.map Double.place := by
  have picks := Double.selects_place
  rw [h.weight_eq unset, unit, List.map_map]
  have scaled : Double.place ∘ ((1 : Float) * ·) = Double.place := funext Double.place_one_mul
  refine ⟨picks.identity_mul entries, ?_⟩
  rw [scaled, ← h.length, picks.identity_mulVec targets]

end Layer

end TaskBody

variable [Add α] [Mul α]

/-! ### Where a layer begins -/

/-- A task brings as many rows as it has. -/
theorem TaskBody.height_of_weighted {t : TaskBody α} {m : RowMatrix α} {q : Tensor α}
    (brought : t.weighted = .ok ⟨.matrix m, q⟩) : m.height = t.count := by
  obtain ⟨w, -, brought⟩ := bind_eq_ok.1 brought
  obtain ⟨rows, count, brought⟩ := bind_eq_ok.1 brought
  obtain ⟨square, brought⟩ := throw_then.1 brought
  obtain ⟨matrix, product, brought⟩ := bind_eq_ok.1 brought
  obtain ⟨reference, -, brought⟩ := bind_eq_ok.1 brought
  obtain ⟨scaled, -, brought⟩ := bind_eq_ok.1 brought
  cases brought
  obtain ⟨k, rfl, height, -⟩ := Tensor.exists_matrix_of_shape (not_not.1 square)
  rw [Tensor.height_of_product product, height, TaskBody.count_of_rows count]

namespace TaskRows

variable {n : Int} {t : TaskBody α} {pre post parts : List (TaskBody α)} {m : RowMatrix α}
  {v : List α}

/-- The rows of a part stand between those of the parts before and after it. -/
theorem merge_split (merged : merge n (pre ++ t :: post) = .ok ⟨.matrix m, .vector v⟩) :
    ∃ top k bottom x u y, merge n pre = .ok ⟨.matrix top, .vector x⟩ ∧
      t.weighted = .ok ⟨.matrix k, .vector u⟩ ∧ merge n post = .ok ⟨.matrix bottom, .vector y⟩ ∧
      k.width = n.toNat ∧ m.rows = top.rows ++ (k.rows ++ bottom.rows) ∧ v = x ++ (u ++ y) := by
  obtain ⟨p, q, first, rest, above⟩ := merge_append_eq_ok.1 merged
  have rest : merge n ([t] ++ post) = .ok q := rest
  obtain ⟨r, s, alone, last, below⟩ := merge_append_eq_ok.1 rest
  obtain ⟨top, x, rfl, -⟩ := exists_of_merge first
  obtain ⟨k, u, rfl, width⟩ := exists_of_merge alone
  obtain ⟨bottom, y, _, rfl, rfl⟩ := above_eq_ok.1 below
  obtain ⟨_, _, _, ⟨⟩, ⟨⟩⟩ := above_eq_ok.1 above
  refine ⟨top, k, bottom, x, u, y, first, weighted_of_merge alone, last, width, ?_, rfl⟩
  rw [RowMatrix.rows_append, RowMatrix.rows_append]

/-- A merge has the rows of all parts together. -/
theorem height_of_merge (merged : merge n parts = .ok ⟨.matrix m, .vector v⟩) :
    m.height = (parts.map TaskBody.count).sum := by
  induction parts generalizing m v with
  | nil =>
    obtain ⟨k, start, run⟩ := bind_eq_ok.1 merged
    cases withoutRows_eq_ok start
    cases run
    rfl
  | cons t parts ih =>
    have merged : merge n ([] ++ t :: parts) = .ok ⟨.matrix m, .vector v⟩ := merged
    obtain ⟨top, k, bottom, x, u, y, first, brought, last, -, rows, -⟩ := merge_split merged
    have none : top.height = 0 := by
      obtain ⟨_, start, run⟩ := bind_eq_ok.1 first
      cases withoutRows_eq_ok start
      cases run
      rfl
    have total := congrArg List.length rows
    rw [List.length_append, List.length_append, RowMatrix.length_rows, RowMatrix.length_rows,
      RowMatrix.length_rows, RowMatrix.length_rows, none, TaskBody.height_of_weighted brought,
      ih last] at total
    rw [total, List.map_cons, List.sum_cons, Nat.zero_add]

/-- The layer of a part begins below the rows of the parts before it. -/
theorem layer_of_merge (merged : merge n (pre ++ t :: post) = .ok ⟨.matrix m, .vector v⟩)
    (gains : ∀ p ∈ pre ++ t :: post, ∃ g, p.gain = .scalar g) :
    ∃ k u, t.weighted = .ok ⟨.matrix k, .vector u⟩ ∧ ∀ j < t.count,
      m.rows[(pre.map TaskBody.count).sum + j]? = k.rows[j]? ∧
        v[(pre.map TaskBody.count).sum + j]? = u[j]? := by
  obtain ⟨top, k, bottom, x, u, y, first, brought, -, -, rfl', rfl⟩ := merge_split merged
  rw [List.forall_mem_append, List.forall_mem_cons] at gains
  obtain ⟨g, gain⟩ := gains.2.1
  have height : top.rows.length = (pre.map TaskBody.count).sum := by
    rw [RowMatrix.length_rows, height_of_merge first]
  have length : x.length = (pre.map TaskBody.count).sum := by
    rw [length_of_merge first gains.1, height_of_merge first]
  have count : k.rows.length = t.count := by
    rw [RowMatrix.length_rows, TaskBody.height_of_weighted brought]
  have count' : u.length = t.count := by
    rw [TaskBody.length_of_weighted brought gain, TaskBody.height_of_weighted brought]
  refine ⟨k, u, brought, fun j inside => ?_⟩
  rw [rfl', ← height, List.getElem?_append_right (Nat.le_add_right _ _), Nat.add_sub_cancel_left,
    List.getElem?_append_left (by rwa [count]), height, ← length,
    List.getElem?_append_right (Nat.le_add_right _ _), Nat.add_sub_cancel_left,
    List.getElem?_append_left (by rwa [count'])]
  exact ⟨rfl, rfl⟩

/-- Only tasks that fit are merged. -/
theorem fits_of_merge {blank : RowMatrix α} {r : TaskRows α}
    (room : RowMatrix.withoutRows n = .ok blank) (gains : ∀ p ∈ parts, ∃ g, p.gain = .scalar g)
    (rooms : ∀ p ∈ parts, p.checkRoom = .ok ()) (merged : merge n parts = .ok r) :
    ∀ p ∈ parts, p.Fits n.toNat := by
  by_contra misfit
  obtain ⟨culprit, first⟩ := exists_firstWithout misfit
  obtain ⟨e, failed, -⟩ := kind_of_merge room gains first (rooms culprit first.mem)
  cases failed.symm.trans merged

end TaskRows

/-- An aggregate is merged when its parts fit, and a weight that was set on it
has the rows of all parts together. -/
theorem MergedTask.regenerate_iff_fits {t : MergedTask α} {parts : List (TaskBody α)}
    {blank : RowMatrix α} (room : RowMatrix.withoutRows t.body.size = .ok blank)
    (gains : ∀ p ∈ parts, ∃ g, p.gain = .scalar g) (rooms : ∀ p ∈ parts, p.checkRoom = .ok ())
    (own : t.body.weight = none → t.body.matrix.rank ≠ 0) :
    (∃ d events, t.regenerate parts = .ok (d, events)) ↔
      (∀ p ∈ parts, p.Fits t.body.size.toNat) ∧
        ∀ w ∈ t.body.weight, w.leading = .ok (parts.map TaskBody.count).sum := by
  constructor
  · rintro ⟨d, events, made⟩
    obtain ⟨r, merged, made⟩ := bind_eq_ok.1 made
    obtain ⟨rows, leading, made⟩ := bind_eq_ok.1 made
    obtain ⟨weight, -⟩ := then_eq_ok.1 made
    obtain ⟨m, v, rfl, -⟩ := TaskRows.exists_of_merge merged
    cases leading
    refine ⟨TaskRows.fits_of_merge room gains rooms merged, fun w set => ?_⟩
    rw [checkWeight, Option.mem_def.1 set] at weight
    obtain ⟨height, first, weight⟩ := bind_eq_ok.1 weight
    split at weight
    · cases weight
    · next same => rw [first, not_not.1 same, TaskRows.height_of_merge merged]
  · rintro ⟨fits, weight⟩
    obtain ⟨r, merged⟩ := TaskRows.merge_ok room gains fits
    obtain ⟨m, v, rfl, -⟩ := TaskRows.exists_of_merge merged
    have allowed : t.checkWeight m.height = .ok () := by
      rw [checkWeight]
      cases set : t.body.weight with
      | none => rfl
      | some w =>
        simp only []
        rw [weight w set, ok_bind, TaskRows.height_of_merge merged, if_neg (not_not.2 rfl)]
        rfl
    have resized : ∃ events, t.resizing m.height = .ok events := by
      rw [resizing]
      cases set : t.body.weight with
      | some w => exact ⟨_, rfl⟩
      | none =>
        cases rows : t.body.rows with
        | error e => exact absurd (Tensor.leading_eq_error rows).1 (own set)
        | ok k => exact ⟨_, rfl⟩
    obtain ⟨events, resized⟩ := resized
    exact ⟨_, events, bind_eq_ok.2 ⟨_, merged, bind_eq_ok.2 ⟨m.height, rfl,
      then_eq_ok.2 ⟨allowed, bind_eq_ok.2 ⟨events, resized, rfl⟩⟩⟩⟩⟩

end Layers

namespace Build

variable [Zero α] [One α] [Add α] [Mul α] [Neg α] [BoundScalar α] {s s' : Store α} {i : ℕ}
  {parts : List TaskRef} {t : MergedTask α}

/-- A merge of an intact aggregate of tasks depends on the bodies of its parts alone. -/
theorem exec_regenerate_task (intact : s.Intact (.task (.merged i parts)))
    (cell : s.mergedTasks.read i = t) :
    (regenerate (.task (.merged i parts))).exec s = (.ok (), s') ↔
      (∃ blank : RowMatrix α, RowMatrix.withoutRows t.body.size = .ok blank) ∧
      ∃ d events, ((∀ p ∈ parts, (s.taskBody p).checkRoom = .ok ()) ∧
          t.regenerate (parts.map s.taskBody) = .ok (d, events)) ∧
        s' = s.afterMerge i parts d (s.retire (.merged i parts)).retired events := by
  subst cell
  have lists := intact.lists _ List.mem_cons_self
  have attached : ∀ p ∈ parts, ∃ own, s.attached p = .ok own := fun p hp =>
    ⟨_, Store.walk_eq_ok _
      (intact.lists _ (List.mem_cons_of_mem _ (List.mem_map_of_mem hp)) _ (by simp))⟩
  have ready : s.checkParts (s.mergedTasks.read i).body.size parts = .ok () ↔
      ∀ p ∈ parts, (s.taskBody p).checkRoom = .ok () :=
    Store.checkParts_eq_ok.trans
      (forall₂_congr fun p hp => and_iff_left (attached p hp))
  unfold regenerate
  rw [exec_bind_ok exec_get, exec_lift_ok (intact.checkCallable_eq_ok _)]
  simp only []
  rw [Store.exec_mergeTask (lists _ (by simp)) (lists _ (by simp)), ready]

/-- The parts decide whether an aggregate can be merged, and a weight that was set on it. -/
theorem regenerate_task_iff (intact : s.Intact (.task (.merged i parts)))
    (cell : s.mergedTasks.read i = t) (gains : ∀ p ∈ parts, ∃ g, (s.taskBody p).gain = .scalar g)
    (own : t.body.weight = none → t.body.matrix.rank ≠ 0) :
    (∃ s', (regenerate (.task (.merged i parts))).exec s = (.ok (), s')) ↔
      (∃ blank : RowMatrix α, RowMatrix.withoutRows t.body.size = .ok blank) ∧
        (∀ p ∈ parts, (s.taskBody p).Fits t.body.size.toNat) ∧
          ∀ w ∈ t.body.weight, w.leading = .ok (s.rowsOf parts) := by
  constructor
  · rintro ⟨s', run⟩
    obtain ⟨⟨blank, room⟩, d, events, ⟨rooms, made⟩, -⟩ := (exec_regenerate_task intact cell).1 run
    obtain ⟨fits, weight⟩ := (MergedTask.regenerate_iff_fits room (List.forall_mem_map.2 gains)
      (List.forall_mem_map.2 rooms) own).1 ⟨d, events, made⟩
    exact ⟨⟨blank, room⟩, List.forall_mem_map.1 fits, weight⟩
  · rintro ⟨⟨blank, room⟩, fits, weight⟩
    have rooms : ∀ p ∈ parts, (s.taskBody p).checkRoom = .ok () := fun p hp => (fits p hp).room
    obtain ⟨d, events, made⟩ := (MergedTask.regenerate_iff_fits room (List.forall_mem_map.2 gains)
      (List.forall_mem_map.2 rooms) own).2 ⟨List.forall_mem_map.2 fits, weight⟩
    exact ⟨_, (exec_regenerate_task intact cell).2
      ⟨⟨blank, room⟩, d, events, ⟨rooms, made⟩, rfl⟩⟩

theorem layers_of_regenerate {n : ℕ} (intact : s.Intact (.task (.merged i parts)))
    (cell : s.mergedTasks.read i = t) (size : t.body.size = n)
    (gains : ∀ p ∈ parts, ∃ g, (s.taskBody p).gain = .scalar g)
    (run : (regenerate (.task (.merged i parts))).exec s = (.ok (), s')) :
    ∃ m v, (s'.taskBody (.merged i parts)).matrix = .matrix m ∧
      (s'.taskBody (.merged i parts)).reference = .vector v ∧ m.width = n ∧
      m.height = s.rowsOf parts ∧ v.length = m.height ∧
      ∀ pre p post, parts = pre ++ p :: post → ∃ w a b g, (s.taskBody p).Layer n w a b g ∧
        ∀ j < a.height,
          m.rows[s.rowsOf pre + j]? = (w.mul a).rows[j]? ∧
          v[s.rowsOf pre + j]? =
            ((w.mulVec b).map (g * ·))[j]? := by
  obtain ⟨⟨blank, room⟩, d, events, ⟨rooms, made⟩, rfl⟩ := (exec_regenerate_task intact cell).1 run
  obtain ⟨r, merged, made⟩ := bind_eq_ok.1 made
  obtain ⟨rows, -, made⟩ := bind_eq_ok.1 made
  obtain ⟨-, made⟩ := then_eq_ok.1 made
  obtain ⟨_, -, made⟩ := bind_eq_ok.1 made
  cases made
  obtain ⟨m, v, rfl, width⟩ := TaskRows.exists_of_merge merged
  have gains' : ∀ p ∈ parts.map s.taskBody, ∃ g, p.gain = .scalar g := List.forall_mem_map.2 gains
  have fits := TaskRows.fits_of_merge room gains' (List.forall_mem_map.2 rooms) merged
  have total := TaskRows.height_of_merge merged
  have natural : t.body.size.toNat = n := by rw [size, Int.toNat_natCast]
  rw [natural] at width fits
  refine ⟨m, v, ?_, ?_, width, total, TaskRows.length_of_merge merged gains', ?_⟩
  · rw [Store.taskBody, Store.afterMerge, Cells.read_write_self]
  · rw [Store.taskBody, Store.afterMerge, Cells.read_write_self]
  rintro pre p post rfl
  obtain ⟨g, gain⟩ := gains p (by simp)
  obtain ⟨w, a, b, layer⟩ := (fits _ (List.mem_map_of_mem (by simp))).exists_layer gain
  rw [List.map_append, List.map_cons] at merged gains'
  obtain ⟨k, u, brought, place⟩ := TaskRows.layer_of_merge merged gains'
  cases layer.weighted_eq_ok.symm.trans brought
  rw [layer.count_eq] at place
  exact ⟨w, a, b, g, layer, place⟩

/-- An aggregate of tasks over `n` variables is merged just when each part has `r`
rows of `n` columns, `r` references and a weight of `r` rows and columns, for some
`r`, and a weight that was set on the aggregate has as many rows as all parts
together, as long as there can be arrays over `n` variables at all, and there is room
for the identity weight of each part whose weight was never set (`TaskBody.fits_iff`).
The gains of the parts are numbers. The merge has these rows and no others: below the
rows of the parts before it, each part has its weight times its rows, and its gain times
its weight times its references. If the weight was never set, the gain is one and all
entries are finite, then these are, as numbers, the rows and the references of the
part. -/
theorem regenerate_stacks {n : ℕ} {s : Store Float} {t : MergedTask Float}
    (intact : s.Intact (.task (.merged i parts))) (cell : s.mergedTasks.read i = t)
    (size : t.body.size = n) (gains : ∀ p ∈ parts, ∃ g, (s.taskBody p).gain = .scalar g)
    (own : t.body.weight = none → t.body.matrix.rank ≠ 0) :
    ((∃ s', (regenerate (.task (.merged i parts))).exec s = (.ok (), s')) ↔
      (∃ blank : RowMatrix Float, RowMatrix.withoutRows n = .ok blank) ∧
        (∀ p ∈ parts, (s.taskBody p).Fits n) ∧
          ∀ w ∈ t.body.weight, w.leading = .ok (s.rowsOf parts)) ∧
    ∀ s', (regenerate (.task (.merged i parts))).exec s = (.ok (), s') →
      ∃ m v, (s'.taskBody (.merged i parts)).matrix = .matrix m ∧
        (s'.taskBody (.merged i parts)).reference = .vector v ∧ m.width = n ∧
        m.height = s.rowsOf parts ∧ v.length = m.height ∧
        ∀ pre p post, parts = pre ++ p :: post → ∃ w a b g, (s.taskBody p).Layer n w a b g ∧
          ∀ j < a.height, ∀ k, k = s.rowsOf pre + j →
            m.rows[k]? = (w.mul a).rows[j]? ∧ v[k]? = ((w.mulVec b).map (g * ·))[j]? ∧
            ((s.taskBody p).weight = none → g = 1 → (∀ x ∈ a.entries, Double.IsFinite x) →
              (∀ x ∈ b, Double.IsFinite x) →
              m.rows[k]?.map (·.map Double.place) = a.rows[j]?.map (·.map Double.place) ∧
                v[k]?.map Double.place = b[j]?.map Double.place) := by
  have accepted := regenerate_task_iff intact cell gains own
  rw [size, Int.toNat_natCast] at accepted
  refine ⟨accepted, fun s' run => ?_⟩
  obtain ⟨m, v, matrix, reference, width, height, length, layers⟩ :=
    layers_of_regenerate intact cell size gains run
  refine ⟨m, v, matrix, reference, width, height, length, fun pre p post split => ?_⟩
  obtain ⟨w, a, b, g, layer, place⟩ := layers pre p post split
  refine ⟨w, a, b, g, layer, ?_⟩
  rintro j inside _ rfl
  obtain ⟨row, target⟩ := place j inside
  refine ⟨row, target, fun unset unit entries targets => ?_⟩
  obtain ⟨rows, references⟩ := layer.plain unset unit entries targets
  rw [row, target, ← List.getElem?_map, ← List.getElem?_map, ← List.getElem?_map,
    ← List.getElem?_map, ← RowMatrix.rows_map, ← RowMatrix.rows_map, rows, references]
  exact ⟨rfl, rfl⟩

/-- A task with a weight and a gain, a task with two rows, and an aggregate that is
to merge both. -/
def layeredTasks : Store Float :=
  let first : LeafTask Float :=
    ⟨⟨"first", 2, .matrix ⟨1, 2, [8, 9], rfl⟩, .vector [3], .scalar 0.5,
      some (.matrix ⟨1, 1, [4], rfl⟩), some .unknown, []⟩, .explicit, none⟩
  let second : LeafTask Float :=
    ⟨⟨"second", 2, .matrix ⟨2, 2, [0, 1, 5, -2], rfl⟩, .vector [6, 7], .scalar 1, none,
      some .unknown, []⟩, .explicit, none⟩
  let both : MergedTask Float :=
    ⟨⟨"first+second", 2, .matrix (.empty 2), .vector [], .scalar 1, none, some .unknown, []⟩, []⟩
  { (Store.empty : Store Float) with
    leafTasks := ⟨first, #[first, second]⟩
    mergedTasks := ⟨both, #[both]⟩ }

theorem layeredTasks_fit :
    ∀ p ∈ [TaskRef.leaf 0, .leaf 1], (layeredTasks.taskBody p).Fits 2 := by
  simp only [List.forall_mem_cons]
  refine ⟨⟨rfl, 1, rfl, rfl, ?_⟩, ⟨rfl, 2, rfl, rfl, nofun⟩, List.forall_mem_nil _⟩
  rintro _ ⟨⟩
  rfl

/-- The aggregate has three rows, and the second part stands below the first one
with the numbers that it has itself. -/
theorem layeredTasks_stack : ∃ s' m v,
    (regenerate (.task (.merged 0 [.leaf 0, .leaf 1]))).exec layeredTasks = (.ok (), s') ∧
      (s'.taskBody (.merged 0 [.leaf 0, .leaf 1])).matrix = .matrix m ∧
      (s'.taskBody (.merged 0 [.leaf 0, .leaf 1])).reference = .vector v ∧ m.height = 3 ∧
      m.rows[2]?.map (·.map Double.place) = some [Double.place 5, Double.place (-2)] ∧
      v[2]?.map Double.place = some (Double.place 7) := by
  have gains : ∀ p ∈ [TaskRef.leaf 0, .leaf 1],
      ∃ g, (layeredTasks.taskBody p).gain = .scalar g := by
    simp only [List.forall_mem_cons]
    exact ⟨⟨_, rfl⟩, ⟨_, rfl⟩, List.forall_mem_nil _⟩
  obtain ⟨accepted, stacked⟩ := regenerate_stacks (s := layeredTasks) (i := 0) (n := 2)
    ⟨fun _ _ _ => rfl, fun _ _ _ _ => rfl⟩ rfl rfl gains (by decide)
  obtain ⟨s', run⟩ := accepted.2 ⟨⟨_, rfl⟩, layeredTasks_fit, nofun⟩
  obtain ⟨m, v, matrix, reference, -, height, -, layers⟩ := stacked s' run
  obtain ⟨w, a, b, g, layer, place⟩ := layers [.leaf 0] (.leaf 1) [] rfl
  cases layer.matrix
  cases layer.reference
  cases layer.gain
  obtain ⟨-, -, plain⟩ := place 1 (by decide) 2 rfl
  have entries : ∀ x ∈ [(0 : Float), 1, 5, -2], Double.IsFinite x := by
    simp only [List.forall_mem_cons]
    exact ⟨.of_value rfl, .of_value rfl, .of_value rfl, .of_value rfl, List.forall_mem_nil _⟩
  have targets : ∀ x ∈ [(6 : Float), 7], Double.IsFinite x := by
    simp only [List.forall_mem_cons]
    exact ⟨.of_value rfl, .of_value rfl, List.forall_mem_nil _⟩
  obtain ⟨row, target⟩ := plain rfl rfl entries targets
  exact ⟨s', m, v, run, matrix, reference, height, row, target⟩

end Build

end ControlHierarchy
