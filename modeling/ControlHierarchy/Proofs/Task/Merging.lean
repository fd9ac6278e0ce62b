import ControlHierarchy.Proofs.Tensor.Identity
import ControlHierarchy.Task.Node

/-!
# Tasks and the rows they bring

A merge piles what its parts bring along: the weighted rows, and the weighted
reference times the gain. A task brings the same wherever it stands, so the rows
of parts put behind each other are those of the first ones above those of the
others (`merge_append_eq_ok`). A merged task with an identity weight, as a part,
brings the rows it was merged of and their reference times its own gain
(`weighted_eq_ok`); had its parts stood there instead, the gain would have been
missing.
-/

namespace ControlHierarchy

variable {α : Type}

namespace TaskBody

theorem blank_eq_ok [Scalar α] {name : String} {n : Int} {g : α} {body : TaskBody α} :
    blank name n (some g) = .ok body ↔ 0 ≤ n ∧ Scalar.inUnitInterval g ∧
      ∃ k, RowMatrix.withoutRows n = .ok k ∧
      body = ⟨name, n, .matrix k, .vector [], .scalar g, none, some .unknown, []⟩ := by
  constructor
  · intro h
    unfold blank at h
    obtain ⟨natural, h⟩ := throw_then.1 h
    obtain ⟨k, start, h⟩ := bind_eq_ok.1 h
    obtain ⟨g', gain, h⟩ := bind_eq_ok.1 h
    rw [readGain] at gain
    split at gain
    · next unit =>
      cases gain
      exact ⟨Int.not_lt.1 natural, unit, k, start, (pure_eq_ok.1 h).symm⟩
    · cases gain
  · rintro ⟨natural, unit, k, start, rfl⟩
    unfold blank
    refine throw_then.2 ⟨Int.not_lt.2 natural, ?_⟩
    rw [start, ok_bind, readGain, if_pos unit]
    rfl

/-- Without a weight of its own, a task has the objective of its matrix, its
reference and its gain. -/
theorem objective_congr [Zero α] [One α] [Add α] [Mul α] [Neg α] {t u : TaskBody α}
    (weight : t.weight = none) (weight' : u.weight = none) (matrix : t.matrix = u.matrix)
    (reference : t.reference = u.reference) (gain : t.gain = u.gain) :
    t.objective = u.objective := by
  have rows : t.rows = u.rows := congrArg Tensor.leading matrix
  have force : t.weightInForce = u.weightInForce := by
    rw [weightInForce, weight, weightInForce, weight', rows]
  unfold objective
  rw [force, rows, matrix, reference, gain, weightInForce, weight']
  cases u.rows with
  | error e => rfl
  | ok k =>
    -- only the name of the task in a message could differ
    have square : ¬(Tensor.matrix (.identity k : RowMatrix α)).shape ≠ [k, k] := not_not.2 rfl
    exact (if_neg square).trans (if_neg square).symm

end TaskBody

/-- What a task brings into a merge. -/
def TaskBody.weighted [Zero α] [One α] [Add α] [Mul α] (t : TaskBody α) :
    Except Error (TaskRows α) := do
  let w ← t.weightInForce
  let rows ← t.rows
  if w.shape ≠ [rows, rows] then throw (.partWeight t.name w.shape rows)
  let matrix ← w.product t.matrix
  let reference ← w.product t.reference
  return ⟨matrix, ← Tensor.combine (· * ·) t.gain reference⟩

namespace TaskBody

variable {t : TaskBody α} {m : RowMatrix α} {v : List α} {g : α}

theorem length_of_weighted [Zero α] [One α] [Add α] [Mul α]
    (h : t.weighted = .ok ⟨.matrix m, .vector v⟩) (gain : t.gain = .scalar g) :
    v.length = m.height := by
  obtain ⟨w, force, h⟩ := bind_eq_ok.1 h
  obtain ⟨rows, count, h⟩ := bind_eq_ok.1 h
  obtain ⟨square, h⟩ := throw_then.1 h
  obtain ⟨matrix, product, h⟩ := bind_eq_ok.1 h
  obtain ⟨reference, product', h⟩ := bind_eq_ok.1 h
  obtain ⟨scaled, combined, h⟩ := bind_eq_ok.1 h
  cases h
  obtain ⟨k, rfl, -⟩ := Tensor.exists_matrix_of_shape (not_not.1 square)
  rw [gain] at combined
  cases reference with
  | vector u =>
    cases combined
    rw [List.length_map, Tensor.length_of_product product', Tensor.height_of_product product]
  | scalar a => cases combined
  | matrix k => cases combined
  | block b => cases combined

/-- With an identity weight the rows stay as they are, and the reference is
multiplied by the gain. -/
theorem weighted_eq_ok [Semiring α] (weight : t.weight = none) (gain : t.gain = .scalar g)
    (matrix : t.matrix = .matrix m) (reference : t.reference = .vector v)
    (length : v.length = m.height) :
    t.weighted = .ok ⟨.matrix m, .vector (v.map (g * ·))⟩ := by
  have rows : t.rows = .ok m.height := by rw [rows, matrix, Tensor.leading_matrix]
  have force : t.weightInForce = .ok (.matrix (.identity m.height)) := by
    rw [weightInForce, weight, rows]
    rfl
  rw [weighted, force, ok_bind, rows, ok_bind]
  refine throw_then.2 ⟨not_not.2 rfl, ?_⟩
  have product : (Tensor.matrix (.identity m.height)).product (.matrix m) = .ok (.matrix m) := by
    rw [Tensor.product_matrix, RowMatrix.identity_mul]
    exact if_pos rfl
  have product' : (Tensor.matrix (.identity m.height)).product (.vector v) = .ok (.vector v) := by
    rw [Tensor.product_vector, ← length, RowMatrix.identity_mulVec]
    exact if_pos rfl
  rw [matrix, product, ok_bind, reference, product', ok_bind, gain]
  rfl

end TaskBody

namespace TaskRows

/-- The rows of one merge above those of another. -/
def above (p q : TaskRows α) : Except Error (TaskRows α) := do
  return ⟨← p.matrix.pile q.matrix, ← p.reference.pile q.reference⟩

variable {m : RowMatrix α} {v : List α} {n : Int} {p q r : TaskRows α}

theorem above_eq_ok : above ⟨.matrix m, .vector v⟩ q = .ok r ↔ ∃ k u, ∃ width : m.width = k.width,
    q = ⟨.matrix k, .vector u⟩ ∧ r = ⟨.matrix (m.append k width), .vector (v ++ u)⟩ := by
  constructor
  · intro h
    obtain ⟨matrix, piled, h⟩ := bind_eq_ok.1 h
    obtain ⟨reference, piled', h⟩ := bind_eq_ok.1 h
    obtain ⟨k, width, isMatrix, rfl⟩ := Tensor.pile_matrix_eq_ok.1 piled
    obtain ⟨u, isVector, rfl⟩ := Tensor.pile_vector_eq_ok.1 piled'
    cases q
    cases isMatrix
    cases isVector
    exact ⟨k, u, width, rfl, (pure_eq_ok.1 h).symm⟩
  · rintro ⟨k, u, width, rfl, rfl⟩
    rw [above, Tensor.pile_matrix width, Tensor.pile_vector]
    rfl

variable [Zero α] [One α] [Add α] [Mul α] {t : TaskBody α} {ts us : List (TaskBody α)}

theorem pileTask_eq_ok : p.pileTask t = .ok r ↔ ∃ q, t.weighted = .ok q ∧ p.above q = .ok r := by
  constructor
  · intro h
    obtain ⟨w, force, h⟩ := bind_eq_ok.1 h
    obtain ⟨rows, count, h⟩ := bind_eq_ok.1 h
    obtain ⟨square, h⟩ := throw_then.1 h
    obtain ⟨matrix, product, h⟩ := bind_eq_ok.1 h
    obtain ⟨piled, pile, h⟩ := bind_eq_ok.1 h
    obtain ⟨reference, product', h⟩ := bind_eq_ok.1 h
    obtain ⟨scaled, combine, h⟩ := bind_eq_ok.1 h
    obtain ⟨piled', pile', h⟩ := bind_eq_ok.1 h
    refine ⟨⟨matrix, scaled⟩, ?_, ?_⟩
    · rw [TaskBody.weighted, force, ok_bind, count, ok_bind]
      refine throw_then.2 ⟨square, ?_⟩
      rw [product, ok_bind, product', ok_bind, combine]
      rfl
    · rw [above, pile, ok_bind, pile', ok_bind]
      exact h
  · rintro ⟨q, h, h'⟩
    obtain ⟨w, force, h⟩ := bind_eq_ok.1 h
    obtain ⟨rows, count, h⟩ := bind_eq_ok.1 h
    obtain ⟨square, h⟩ := throw_then.1 h
    obtain ⟨matrix, product, h⟩ := bind_eq_ok.1 h
    obtain ⟨reference, product', h⟩ := bind_eq_ok.1 h
    obtain ⟨scaled, combine, h⟩ := bind_eq_ok.1 h
    cases h
    obtain ⟨piled, pile, h'⟩ := bind_eq_ok.1 h'
    rw [pileTask, force, ok_bind, count, ok_bind]
    refine throw_then.2 ⟨square, ?_⟩
    rw [product, ok_bind, pile, ok_bind, product', ok_bind, combine, ok_bind]
    exact h'

omit [Zero α] [One α] [Add α] [Mul α] in
theorem above_above {k : RowMatrix α} {u : List α} :
    (∃ p, above ⟨.matrix m, .vector v⟩ ⟨.matrix k, .vector u⟩ = .ok p ∧ above p q = .ok r) ↔
      ∃ p, above ⟨.matrix k, .vector u⟩ q = .ok p ∧ above ⟨.matrix m, .vector v⟩ p = .ok r := by
  constructor
  · rintro ⟨_, first, second⟩
    obtain ⟨_, _, width, ⟨⟩, rfl⟩ := above_eq_ok.1 first
    obtain ⟨l, x, width', rfl, rfl⟩ := above_eq_ok.1 second
    refine ⟨_, above_eq_ok.2 ⟨l, x, width.symm.trans width', rfl, rfl⟩,
      above_eq_ok.2 ⟨k.append l _, u ++ x, width, rfl, ?_⟩⟩
    rw [RowMatrix.append_assoc, List.append_assoc]
  · rintro ⟨_, first, second⟩
    obtain ⟨l, x, width', rfl, rfl⟩ := above_eq_ok.1 first
    obtain ⟨_, _, width, ⟨⟩, rfl⟩ := above_eq_ok.1 second
    rw [RowMatrix.width_append] at width
    refine ⟨_, above_eq_ok.2 ⟨k, u, width, rfl, rfl⟩,
      above_eq_ok.2 ⟨l, x, (RowMatrix.width_append m k width).trans (width.trans width'), rfl, ?_⟩⟩
    rw [RowMatrix.append_assoc _ _ _ width width', List.append_assoc]

omit [Zero α] [One α] [Add α] [Mul α] in
theorem empty_append_of_width {width : Nat} (h : width = m.width) :
    (RowMatrix.empty width).append m h = m := by
  subst h
  exact RowMatrix.empty_append m

theorem foldlM_cons_eq_ok :
    (t :: ts).foldlM pileTask ⟨.matrix m, .vector v⟩ = .ok r ↔ ∃ k u, ∃ width : m.width = k.width,
    t.weighted = .ok ⟨.matrix k, .vector u⟩ ∧
    ts.foldlM pileTask ⟨.matrix (m.append k width), .vector (v ++ u)⟩ = .ok r := by
  rw [List.foldlM_cons, bind_eq_ok]
  constructor
  · rintro ⟨_, step, rest⟩
    obtain ⟨_, brought, piled⟩ := pileTask_eq_ok.1 step
    obtain ⟨k, u, width, rfl, rfl⟩ := above_eq_ok.1 piled
    exact ⟨k, u, width, brought, rest⟩
  · rintro ⟨k, u, width, brought, rest⟩
    exact ⟨_, pileTask_eq_ok.2 ⟨_, brought, above_eq_ok.2 ⟨k, u, width, rfl, rfl⟩⟩, rest⟩

/-- What was piled before stays on top. -/
theorem foldlM_pileTask_eq_ok : ts.foldlM pileTask ⟨.matrix m, .vector v⟩ = .ok r ↔
    ∃ q, ts.foldlM pileTask ⟨.matrix (.empty m.width), .vector []⟩ = .ok q ∧
    above ⟨.matrix m, .vector v⟩ q = .ok r := by
  induction ts generalizing m v r with
  | nil =>
    have unit : above ⟨.matrix m, .vector v⟩ ⟨.matrix (.empty m.width), .vector []⟩ =
        .ok ⟨.matrix m, .vector v⟩ := by
      refine above_eq_ok.2 ⟨_, _, (RowMatrix.width_empty _).symm, rfl, ?_⟩
      rw [RowMatrix.append_empty, List.append_nil]
    constructor
    · rintro ⟨⟩
      exact ⟨_, rfl, unit⟩
    · rintro ⟨q, ⟨⟩, h⟩
      exact unit.symm.trans h
  | cons t ts ih =>
    -- on the left the rows of `t` stand below those before them, on the right
    -- above those after them
    constructor
    · intro h
      obtain ⟨k, u, width, brought, rest⟩ := foldlM_cons_eq_ok.1 h
      obtain ⟨q, rest, piled⟩ := ih.1 rest
      obtain ⟨p, below, whole⟩ := above_above.1 ⟨_, above_eq_ok.2 ⟨k, u, width, rfl, rfl⟩, piled⟩
      refine ⟨p, foldlM_cons_eq_ok.2 ⟨k, u, width, brought, ih.2 ⟨q, rest, ?_⟩⟩, whole⟩
      rw [empty_append_of_width, List.nil_append, below]
    · rintro ⟨p, h, whole⟩
      obtain ⟨k, u, width, brought, rest⟩ := foldlM_cons_eq_ok.1 h
      obtain ⟨q, rest, piled⟩ := ih.1 rest
      rw [RowMatrix.width_empty] at width
      rw [empty_append_of_width width, List.nil_append] at piled
      obtain ⟨_, first, second⟩ := above_above.2 ⟨p, piled, whole⟩
      obtain ⟨_, _, _, ⟨⟩, rfl⟩ := above_eq_ok.1 first
      exact foldlM_cons_eq_ok.2 ⟨k, u, width, brought, ih.2 ⟨q, rest, second⟩⟩

omit [Zero α] [One α] [Add α] [Mul α] in
theorem withoutRows_eq_ok (h : RowMatrix.withoutRows n = .ok m) : m = .empty n.toNat := by
  unfold RowMatrix.withoutRows at h
  split at h
  · cases h
  · exact (Except.ok.inj h).symm

/-- A merge gives a matrix of the asked width and a vector. -/
theorem exists_of_merge (h : merge n ts = .ok r) :
    ∃ m v, r = ⟨.matrix m, .vector v⟩ ∧ m.width = n.toNat := by
  obtain ⟨k, start, run⟩ := bind_eq_ok.1 h
  obtain ⟨q, -, piled⟩ := foldlM_pileTask_eq_ok.1 run
  obtain ⟨l, u, width, -, rfl⟩ := above_eq_ok.1 piled
  exact ⟨_, _, rfl, congrArg RowMatrix.width (withoutRows_eq_ok start)⟩

/-- The rows of parts put behind each other. -/
theorem merge_append_eq_ok :
    merge n (ts ++ us) = .ok r ↔ ∃ p q, merge n ts = .ok p ∧ merge n us = .ok q ∧
    above p q = .ok r := by
  cases start : (RowMatrix.withoutRows n : Except Error (RowMatrix α)) with
  | error e => simp [merge, start]
  | ok k =>
    have run : ∀ ts : List (TaskBody α),
        merge n ts = ts.foldlM pileTask ⟨.matrix (.empty n.toNat), .vector []⟩ := by
      intro ts
      rw [merge, start, ok_bind, withoutRows_eq_ok start]
    have split : merge n (ts ++ us) = merge n ts >>= us.foldlM pileTask := by
      rw [run, run, List.foldlM_append]
    rw [split, bind_eq_ok]
    refine exists_congr fun p => ?_
    rw [exists_and_left]
    refine and_congr_right fun first => ?_
    obtain ⟨m, v, rfl, width⟩ := exists_of_merge first
    rw [foldlM_pileTask_eq_ok, width, run]

/-- A merge of one part gives what the part brings. -/
theorem weighted_of_merge (h : merge n [t] = .ok r) : t.weighted = .ok r := by
  obtain ⟨k, start, run⟩ := bind_eq_ok.1 h
  obtain ⟨l, u, width, brought, rest⟩ := foldlM_cons_eq_ok.1 run
  cases withoutRows_eq_ok start
  rw [RowMatrix.width_empty] at width
  rw [empty_append_of_width width] at rest
  cases rest
  exact brought

theorem merge_of_weighted {k : RowMatrix α} (start : RowMatrix.withoutRows n = .ok k)
    (width : m.width = n.toNat) (brought : t.weighted = .ok ⟨.matrix m, .vector v⟩) :
    merge n [t] = .ok ⟨.matrix m, .vector v⟩ := by
  rw [merge, start, ok_bind, withoutRows_eq_ok start]
  have same : (RowMatrix.empty n.toNat : RowMatrix α).width = m.width := width.symm
  refine foldlM_cons_eq_ok.2 ⟨m, v, same, brought, ?_⟩
  rw [empty_append_of_width width.symm]
  rfl

/-- Parts with numbers as gains give as many references as rows. -/
theorem length_of_merge (h : merge n ts = .ok ⟨.matrix m, .vector v⟩)
    (gains : ∀ t ∈ ts, ∃ g, t.gain = .scalar g) :
    v.length = m.height := by
  induction ts generalizing m v with
  | nil =>
    obtain ⟨k, start, run⟩ := bind_eq_ok.1 h
    cases withoutRows_eq_ok start
    cases run
    rfl
  | cons t ts ih =>
    have split : merge n ([t] ++ ts) = .ok ⟨.matrix m, .vector v⟩ := h
    obtain ⟨p, q, first, rest, piled⟩ := merge_append_eq_ok.1 split
    obtain ⟨k, u, rfl, -⟩ := exists_of_merge first
    obtain ⟨l, x, _, rfl, ⟨⟩⟩ := above_eq_ok.1 piled
    obtain ⟨g, gain⟩ := gains t List.mem_cons_self
    have top := TaskBody.length_of_weighted (weighted_of_merge first) gain
    have bottom := ih rest fun t ht => gains t (List.mem_cons_of_mem _ ht)
    rw [List.length_append, RowMatrix.height_append, top, bottom]

end TaskRows

end ControlHierarchy
