import ControlHierarchy.Proofs.Store.Addition
import ControlHierarchy.Proofs.Task.Quadratic

/-!
# Objectives of aggregates of tasks

The objective of an aggregate without a weight of its own is the sum of what its
parts bring, each with its weight twice. So it does not depend on the order of
the parts, nor on how they are grouped into aggregates without a weight or a gain
of their own, at any depth (`Store.TasksGrouped.amounts`); and it is the sum of
the objectives of the parts when their weights are unit matrices
(`Build.mergeTasks_objective`).
-/

namespace ControlHierarchy

open Matrix

variable {α : Type}

namespace Store

/-- An aggregate over `n` variables, with an identity weight and a unit gain, that
has the rows of a merge of its parts and can be merged itself. -/
structure IsTaskGroup [Zero α] [One α] [Add α] [Mul α] (s : Store α) (n : Int) (i : Nat)
    (parts : List TaskRef) : Prop where
  size : (s.taskBody (.merged i parts)).size = n
  weight : (s.taskBody (.merged i parts)).weight = none
  gain : (s.taskBody (.merged i parts)).gain = .scalar 1
  rows : TaskRows.merge n (parts.map s.taskBody) =
    .ok ⟨(s.taskBody (.merged i parts)).matrix, (s.taskBody (.merged i parts)).reference⟩
  ready : s.Ready (.merged i parts)

/-- A list of tasks, in order, grouped into such aggregates, to any depth. -/
inductive TasksGrouped [Zero α] [One α] [Add α] [Mul α] (s : Store α) (n : Int) :
    List TaskRef → List TaskRef → Prop
  | nil : TasksGrouped s n [] []
  | child (t : TaskRef) {children parts : List TaskRef}
      (rest : TasksGrouped s n children parts) :
      TasksGrouped s n (t :: children) (t :: parts)
  | group (i : Nat) {inner groups children parts : List TaskRef}
      (below : TasksGrouped s n inner groups) (group : s.IsTaskGroup n i groups)
      (rest : TasksGrouped s n children parts) :
      TasksGrouped s n (inner ++ children) (.merged i groups :: parts)

variable {s : Store α} {n : ℕ} {children parts : List TaskRef}

/-- What holds of the tasks and of all groups holds of what is merged. -/
theorem TasksGrouped.forall_parts [Zero α] [One α] [Add α] [Mul α] {P : TaskRef → Prop}
    (h : s.TasksGrouped n children parts) (tasks : ∀ t ∈ children, P t)
    (groups : ∀ i groups, s.IsTaskGroup n i groups → P (.merged i groups)) :
    ∀ t ∈ parts, P t := by
  induction h with
  | nil => exact tasks
  | child t _ ih =>
    obtain ⟨first, rest⟩ := List.forall_mem_cons.1 tasks
    exact List.forall_mem_cons.2 ⟨first, ih rest⟩
  | group i _ group _ _ ih =>
    obtain ⟨-, rest⟩ := List.forall_mem_append.1 tasks
    exact List.forall_mem_cons.2 ⟨groups i _ group, ih rest⟩

theorem TasksGrouped.parts_ne_nil [Zero α] [One α] [Add α] [Mul α]
    (h : s.TasksGrouped n children parts) (nonempty : children ≠ []) : parts ≠ [] := by
  cases h with
  | nil => exact nonempty
  | child t rest => exact List.cons_ne_nil _ _
  | group i below group rest => exact List.cons_ne_nil _ _

/-- However tasks are grouped, the merge of the groups amounts to the sum of what
the tasks bring. -/
theorem TasksGrouped.amounts [Ring α] {k : RowMatrix α} {f : TaskRef → Quadratic α n}
    (room : RowMatrix.withoutRows n = .ok k) (h : s.TasksGrouped n children parts)
    (brings : ∀ t ∈ children, (s.taskBody t).Brings (f t)) :
    ∃ r, TaskRows.merge n (parts.map s.taskBody) = .ok r ∧ r.Amounts (children.map f).sum := by
  induction h with
  | nil => exact TaskRows.merge_nil_amounts room
  | child t _ ih =>
    obtain ⟨first, rest⟩ := List.forall_mem_cons.1 brings
    rw [List.map_cons, List.map_cons, List.sum_cons]
    exact TaskRows.merge_cons_amounts room first (ih rest)
  | group i _ group _ below ih =>
    obtain ⟨inner, rest⟩ := List.forall_mem_append.1 brings
    obtain ⟨r, merged, amounts⟩ := below inner
    cases group.rows.symm.trans merged
    rw [List.map_append, List.sum_append, List.map_cons]
    exact TaskRows.merge_cons_amounts room (amounts.brings rfl rfl group.weight group.gain)
      (ih rest)

end Store

namespace Build

/-- A new aggregate has a cell of its own; all others stay as they are. -/
theorem taskBody_newMergedTask {s s' : Store α} {parts : List TaskRef} {t : MergedTask α}
    {u v : TaskRef} (run : (newMergedTask parts t).exec s = (.ok u, s'))
    (other : ∀ i below, v = .merged i below → i < s.mergedTasks.next) :
    s'.taskBody v = s.taskBody v := by
  cases run
  cases v with
  | leaf i => rfl
  | merged i below =>
    exact congrArg MergedTask.body
      (Cells.read_write_of_ne _ _ (Nat.ne_of_lt (other i below rfl)))

/-- A merge builds such a group, as long as the list of what is attached to it can
be gone through and there is room for its weight. -/
theorem isTaskGroup_mergeTasks [Zero α] [One α] [Add α] [Mul α] [Scalar α] {s s' : Store α} {n : ℕ}
    {parts : List TaskRef} {u : TaskRef} (run : (mergeTasks parts n).exec s = (.ok u, s'))
    (ready : s'.Ready u) (fresh : ∀ i below, .merged i below ∈ parts → i < s.mergedTasks.next) :
    ∃ i, u = .merged i parts ∧ s'.IsTaskGroup n i parts ∧
      ∀ t ∈ parts, s'.taskBody t = s.taskBody t := by
  rw [mergeTasks_eq] at run
  obtain ⟨t, s₁, made, stored⟩ := exec_bind_eq_ok.1 run
  obtain ⟨-, r, events, rows, rfl, rfl⟩ := exec_mergedTask made
  have kept : ∀ v ∈ parts, s'.taskBody v = s.taskBody v := by
    intro v hv
    rw [taskBody_newMergedTask stored fun i below same => fresh i below (same ▸ hv)]
    cases v <;> rfl
  have body := exec_newMergedTask stored
  have place : u = .merged s.mergedTasks.next parts := by cases stored; rfl
  subst place
  refine ⟨_, rfl, ⟨?_, ?_, ?_, ?_, ready⟩, kept⟩
  all_goals rw [body]
  rw [List.map_congr_left kept, rows]

/-- However tasks over `n` variables, in any order, are grouped, the aggregate of
the groups has the sum of what the tasks bring as its objective, each with its
weight twice and its gain once. When all weights are unit matrices, this is the
sum of their own objectives. -/
theorem mergeTasks_objective [CommRing α] [Scalar α] {s : Store α} {n : ℕ}
    {ts children parts : List TaskRef} {q : TaskRef → LeastSquares α n} (nonempty : ts ≠ [])
    (unit : Scalar.inUnitInterval (1 : α))
    (room : ∃ k : RowMatrix α, RowMatrix.withoutRows n = .ok k)
    (tasks : ∀ t ∈ ts, (s.taskBody t).size = n ∧ (s.taskBody t).Poses (q t) ∧ s.Ready t)
    (order : children.Perm ts) (grouped : s.TasksGrouped n children parts) :
    (∃ u s', (mergeTasks parts n).exec s = (.ok u, s') ∧ (s'.taskBody u).objective =
      .ok (.of (ts.map fun t => (q t).squared).sum)) ∧
    ((∀ t ∈ ts, (q t).weight = 1) → ∃ own : TaskRef → Quadratic α n,
      (∀ t ∈ ts, (s.taskBody t).objective = .ok (.of (own t))) ∧
        (ts.map fun t => (q t).squared).sum = (ts.map own).sum) := by
  constructor
  · have below : ∀ t ∈ children, t ∈ ts := fun t ht => order.subset ht
    obtain ⟨k, room⟩ := room
    obtain ⟨r, rows, amounts⟩ := grouped.amounts room
      fun t ht => (tasks t (below t ht)).2.1.brings
    have mergeable : s.Mergeable n parts :=
      { nonempty := grouped.parts_ne_nil fun none => nonempty (none ▸ order).nil_eq.symm
        natural := Int.natCast_nonneg n
        unit := unit
        sizes := grouped.forall_parts (fun t ht => (tasks t (below t ht)).1) fun _ _ g => g.size
        ready := grouped.forall_parts (fun t ht => (tasks t (below t ht)).2.2) fun _ _ g => g.ready
        rows := ⟨r, rows⟩ }
    obtain ⟨u, s', run⟩ := mergeTasks_succeeds mergeable
    obtain ⟨-, name, r', rows', body⟩ := exec_mergeTasks run
    cases rows.symm.trans rows'
    refine ⟨u, s', run, ?_⟩
    rw [← (order.map fun t => (q t).squared).sum_eq, body]
    exact amounts.objective rfl rfl rfl rfl
  · intro unit
    refine ⟨fun t => (q t).own, fun t ht => (tasks t ht).2.1.objective, ?_⟩
    exact congrArg List.sum (List.map_congr_left fun t ht => LeastSquares.squared_eq_own (unit t ht))

/-- Two tasks over one variable, the first one with a weight and a gain, and an
aggregate of the first one. -/
def weighedTask : Store ℚ :=
  let first : LeafTask ℚ :=
    ⟨⟨"first", 1, .matrix (.ofMatrix !![1]), .vector [1], .scalar (1 / 2),
      some (.matrix (.ofMatrix !![2])), some .unknown, []⟩, .explicit, none⟩
  let second : LeafTask ℚ :=
    ⟨⟨"second", 1, .matrix (.ofMatrix !![2]), .vector [3], .scalar 1, none, some .unknown, []⟩,
      .explicit, none⟩
  let group : MergedTask ℚ :=
    ⟨⟨"first", 1, .matrix (.ofMatrix !![2]), .vector [1], .scalar 1, none, some .semidefinite, []⟩,
      []⟩
  { (Store.empty : Store ℚ) with
    leafTasks := ⟨first, #[first, second]⟩
    mergedTasks := ⟨group, #[group]⟩ }

/-- The problems that the two tasks pose. -/
def weighedProblem : TaskRef → LeastSquares ℚ 1
  | .leaf 0 => ⟨1, !![1], ![1], !![2], 1 / 2⟩
  | _ => ⟨1, !![2], ![3], 1, 1⟩

theorem weighedTask_tasks : ∀ t ∈ [TaskRef.leaf 0, .leaf 1], (weighedTask.taskBody t).size = 1 ∧
    (weighedTask.taskBody t).Poses (weighedProblem t) ∧ weighedTask.Ready t := by
  simp only [List.forall_mem_cons]
  refine ⟨⟨rfl, ⟨rfl, rfl, .inl rfl, rfl⟩, rfl, _, rfl⟩,
    ⟨rfl, ⟨rfl, rfl, .inr ⟨rfl, rfl⟩, rfl⟩, rfl, _, rfl⟩, List.forall_mem_nil _⟩

/-- The second task above the group of the first one has the weight of the first
one twice; alone, the second task keeps its objective. -/
theorem weighedTask_objective :
    (∃ u s', (mergeTasks [.leaf 1, .merged 0 [.leaf 0]] 1).exec weighedTask = (.ok u, s') ∧
      (s'.taskBody u).objective = .ok (.of ((!![8], ![-8]) : Quadratic ℚ 1))) ∧
    ∃ u s', (mergeTasks [.leaf 1] 1).exec weighedTask = (.ok u, s') ∧
      (s'.taskBody u).objective = (weighedTask.taskBody (.leaf 1)).objective := by
  have grouped : weighedTask.TasksGrouped (1 : ℕ) [.leaf 1, .leaf 0]
      [.leaf 1, .merged 0 [.leaf 0]] := by
    refine .child _ (.group 0 (.child (.leaf 0) .nil) ⟨rfl, rfl, rfl, ?_, rfl, _, rfl⟩ .nil)
    with_unfolding_all rfl
  have alone := weighedTask_tasks (.leaf 1) (by simp)
  obtain ⟨both, -⟩ := mergeTasks_objective (List.cons_ne_nil _ _) (by decide +kernel) ⟨_, rfl⟩
    weighedTask_tasks (.swap _ _ _) grouped
  obtain ⟨⟨u, s', run, objective⟩, own⟩ := mergeTasks_objective (q := weighedProblem)
    (List.cons_ne_nil _ []) (by decide +kernel) ⟨_, rfl⟩ (List.forall_mem_singleton.2 alone)
    (.refl _) (.child (.leaf 1) .nil)
  obtain ⟨f, same, sum⟩ := own (List.forall_mem_singleton.2 rfl)
  have total : ([TaskRef.leaf 0, .leaf 1].map fun t => (weighedProblem t).squared).sum =
      (!![8], ![-8]) := by
    decide +kernel
  constructor
  · rwa [total] at both
  · refine ⟨u, s', run, ?_⟩
    rw [objective, sum, List.map_singleton, List.sum_singleton, same _ List.mem_cons_self]

end Build

end ControlHierarchy
