import ControlHierarchy.Proofs.Store.Assembling
import Mathlib.Algebra.Field.Rat

/-!
# Sums of tasks

A sum takes the aggregates among its operands apart when their weight is the
identity, so it merges what the operands bring (`Store.spread`) and attaches to
the result what was attached to them. The alternative is to merge the operands
as they are. Both have the same rows and, up to their order, the same
constraints. They have the same references just when no operand that was taken
apart had a gain that mattered (`addTasks_agrees_iff`).
-/

namespace ControlHierarchy

variable {α : Type}

namespace Build

section Summands

variable {s : Store α} {n : Int} {t : MergedTask α} {parts : List TaskRef} {a : TaskRef}

/-- To attach objects to an aggregate that is not stored yet changes nothing. -/
theorem onlyLogs_foldlM_attachTo (own : List Object) (t : MergedTask α) :
    OnlyLogs (own.foldlM attachTo t) := by
  induction own generalizing t with
  | nil => exact onlyLogs_pure t
  | cons o own ih =>
    rw [List.foldlM_cons]
    refine onlyLogs_bind ?_ ih
    unfold attachTo
    exact onlyLogs_bind onlyLogs_get fun s => onlyLogs_bind (onlyLogs_lift _) fun _ =>
      onlyLogs_lift _

/-- Objects of the right size are attached one after the other. -/
theorem exec_attachAll {own : List Object} (sizes : ∀ o ∈ own, s.objectSize o = .ok t.body.size) :
    (own.foldlM attachTo t).exec s = (.ok (t.attachAll own), s) := by
  induction own generalizing t with
  | nil =>
    rw [MergedTask.attachAll_nil]
    rfl
  | cons o own ih =>
    have step : (attachTo t o).exec s = (.ok (t.attachAll [o]), s) := by
      unfold attachTo
      rw [exec_bind_ok exec_get, exec_lift_ok (sizes o List.mem_cons_self), exec_lift,
        MergedTask.attach_eq_ok]
    have rest : ∀ p ∈ own, s.objectSize p = .ok (t.attachAll [o]).body.size :=
      fun p hp => sizes p (List.mem_cons_of_mem _ hp)
    rw [List.foldlM_cons, exec_bind_ok step, ih rest, MergedTask.attachAll_attachAll]
    rfl

/-- Nothing but objects of the right size is attached. -/
theorem foldlM_attachTo_eq_ok {own : List Object} {e : MergedTask α} {s' : Store α} :
    (own.foldlM attachTo t).exec s = (.ok e, s') ↔
      (∀ o ∈ own, s.objectSize o = .ok t.body.size) ∧ e = t.attachAll own ∧ s' = s := by
  constructor
  · intro run
    induction own generalizing t with
    | nil =>
      cases run
      exact ⟨List.forall_mem_nil _, MergedTask.attachAll_nil.symm, rfl⟩
    | cons o own ih =>
      rw [List.foldlM_cons] at run
      obtain ⟨d, s₁, first, rest⟩ := exec_bind_eq_ok.1 run
      unfold attachTo at first
      rw [exec_bind_ok exec_get] at first
      obtain ⟨size, asked, first⟩ := exec_lift_bind_eq_ok.1 first
      rw [exec_lift] at first
      obtain ⟨attached, same⟩ := Prod.mk.inj first
      subst same
      obtain ⟨rfl, rfl⟩ := MergedTask.attach_eq_ok_iff.1 attached
      obtain ⟨sizes, rfl, rfl⟩ := ih rest
      exact ⟨List.forall_mem_cons.2 ⟨asked, sizes⟩, MergedTask.attachAll_attachAll _ _, rfl⟩
  · rintro ⟨sizes, rfl, rfl⟩
    exact exec_attachAll sizes

theorem ownConstraints_eq_ok {i : Nat}
    (list : s.arrayIn? (.task (.merged i parts)) (.backing .ownConstraints) = none) :
    s.ownConstraints (.merged i parts) = .ok (s.mergedTasks.read i).own :=
  Store.walk_eq_ok _ list

theorem checkSummand_eq_ok (lists : ∀ kept, s.arrayIn? (.task a) (.backing kept) = none) :
    checkSummand s a = .ok () := by
  cases a with
  | leaf i => rfl
  | merged i parts =>
    rw [checkSummand]
    split
    · rw [Store.walk_eq_ok _ (lists _), ok_bind, ownConstraints_eq_ok (lists _)]
      rfl
    · rfl

theorem summands_eq_ok (lists : ∀ kept, s.arrayIn? (.task a) (.backing kept) = none) :
    summands s a = .ok ((s.spread a).1, (s.spread a).2) := by
  unfold summands
  by_cases apart : dissolves s a
  · cases a with
    | leaf i => cases apart
    | merged i parts =>
      have parts_eq : s.taskParts (.merged i parts) = .ok parts :=
        Store.asked_eq_ok _ (lists _)
      rw [if_pos apart, parts_eq, ok_bind, ownConstraints_eq_ok (lists _),
        Store.spread_of_dissolves apart]
      rfl
  · rw [if_neg apart, Store.spread_of_not_dissolves apart]
    rfl

theorem attached_eq_ok (h : s.Settled n a) : s.attached a = .ok (s.taskBody a).constraints :=
  Store.walk_eq_ok _ (h.lists _)

end Summands

variable [Zero α] [One α] [Add α] [Mul α] [Scalar α] {s s' : Store α} {n : Int} {a b : TaskRef}
    {t : MergedTask α}

/-- What a successful sum does: it merges what its operands bring, attaches what was
attached to them, and stores the result. -/
theorem addTasks_eq_ok {u : TaskRef} : (addTasks a b).exec s = (.ok u, s') ↔
    checkSummand s a = .ok () ∧ checkSummand s b = .ok () ∧ ∃ parts own parts' own',
      summands s a = .ok (parts, own) ∧ summands s b = .ok (parts', own') ∧ ∃ d s₁,
        (mergedTask (parts ++ parts') (s.taskBody a).size).exec s = (.ok d, s₁) ∧
        (∀ o ∈ own ++ own', s₁.objectSize o = .ok d.body.size) ∧
        (newMergedTask (parts ++ parts') (d.attachAll (own ++ own'))).exec s₁ = (.ok u, s') := by
  constructor
  · intro run
    unfold addTasks at run
    rw [exec_bind_ok exec_get] at run
    obtain ⟨⟨⟩, sound, run⟩ := exec_lift_bind_eq_ok.1 run
    obtain ⟨⟨⟩, sound', run⟩ := exec_lift_bind_eq_ok.1 run
    obtain ⟨⟨parts, own⟩, first, run⟩ := exec_lift_bind_eq_ok.1 run
    obtain ⟨⟨parts', own'⟩, second, run⟩ := exec_lift_bind_eq_ok.1 run
    obtain ⟨blank, s₁, prepared, run⟩ := exec_bind_eq_ok.1 run
    obtain ⟨d, s₂, merged, run⟩ := exec_bind_eq_ok.1 run
    obtain ⟨e, s₃, attached, stored⟩ := exec_bind_eq_ok.1 run
    obtain ⟨sizes, rfl, rfl⟩ := foldlM_attachTo_eq_ok.1 attached
    exact ⟨sound, sound', parts, own, parts', own', first, second, d, s₃,
      (exec_bind_ok prepared).trans merged, sizes, stored⟩
  · rintro ⟨sound, sound', parts, own, parts', own', first, second, d, s₁, made, sizes, stored⟩
    obtain ⟨blank, s₂, prepared, merged⟩ := exec_bind_eq_ok.1 made
    unfold addTasks
    rw [exec_bind_ok exec_get, exec_lift_ok sound, exec_lift_ok sound', exec_lift_ok first,
      exec_lift_ok second, exec_bind_ok prepared, exec_bind_ok merged,
      exec_bind_ok (foldlM_attachTo_eq_ok.2 ⟨sizes, rfl, rfl⟩)]
    exact stored

/-- A sum is a merge of what its operands bring, with what was attached to them
attached to it. -/
theorem addTasks_eq (ha : s.UpToDate n a) (hb : s.UpToDate n b) : (addTasks a b).exec s =
    (do
      let t ← mergedTask ((s.spread a).1 ++ (s.spread b).1) n
      let t ← ((s.spread a).2 ++ (s.spread b).2).foldlM attachTo t
      newMergedTask ((s.spread a).1 ++ (s.spread b).1) t).exec s := by
  unfold addTasks mergedTask
  have first : ∀ kept, s.arrayIn? (.task a) (.backing kept) = none := fun _ => ha.settled.lists _
  have second : ∀ kept, s.arrayIn? (.task b) (.backing kept) = none := fun _ => hb.settled.lists _
  rw [exec_bind_ok exec_get, exec_lift_ok (checkSummand_eq_ok first),
    exec_lift_ok (checkSummand_eq_ok second), exec_lift_ok (summands_eq_ok first),
    exec_lift_ok (summands_eq_ok second), ha.settled.size, bind_assoc]

omit [Scalar α] in
/-- What was attached to the operands can be attached to the sum. -/
theorem exec_attachSpread (ha : s.UpToDate n a) (hb : s.UpToDate n b) (size : t.body.size = n)
    (events : List Event) :
    (((s.spread a).2 ++ (s.spread b).2).foldlM attachTo t).exec (s.withLog events) =
      (.ok (t.attachAll ((s.spread a).2 ++ (s.spread b).2)), s.withLog events) := by
  refine exec_attachAll fun o ho => ?_
  rw [Store.objectSize_withLog, size]
  rcases List.mem_append.1 ho with ho | ho
  · exact ha.spreads.own o ho
  · exact hb.spreads.own o ho

theorem exec_addTasks {u : TaskRef} (ha : s.UpToDate n a) (hb : s.UpToDate n b)
    (run : (addTasks a b).exec s = (.ok u, s')) :
    s.Mergeable n ((s.spread a).1 ++ (s.spread b).1) ∧ ∃ name r,
      TaskRows.merge n (((s.spread a).1 ++ (s.spread b).1).map s.taskBody) = .ok r ∧
        s'.taskBody u = ⟨name, n, r.matrix, r.reference, .scalar 1, none, some .semidefinite,
          (((s.spread a).1 ++ (s.spread b).1).map s.taskBody).flatMap TaskBody.constraints ++
            ((s.spread a).2 ++ (s.spread b).2)⟩ := by
  rw [addTasks_eq ha hb] at run
  obtain ⟨t, s₁, made, run⟩ := exec_bind_eq_ok.1 run
  obtain ⟨mergeable, r, events, rows, rfl, rfl⟩ := exec_mergedTask made
  rw [exec_bind_ok (exec_attachSpread ha hb rfl events)] at run
  exact ⟨mergeable, _, r, rows, exec_newMergedTask run⟩

theorem addTasks_succeeds (ha : s.UpToDate n a) (hb : s.UpToDate n b)
    (h : s.Mergeable n ((s.spread a).1 ++ (s.spread b).1)) :
    ∃ u s', (addTasks a b).exec s = (.ok u, s') := by
  obtain ⟨t, s₁, made⟩ := mergedTask_succeeds h
  rw [addTasks_eq ha hb, exec_bind_ok made]
  obtain ⟨-, r, events, -, rfl, rfl⟩ := exec_mergedTask made
  rw [exec_bind_ok (exec_attachSpread ha hb rfl events)]
  exact ⟨_, _, rfl⟩

end Build

/-- As long as there is room, two tasks can be merged just when what they bring
into a sum can be. -/
theorem Store.mergeable_spread_iff [Semiring α] [Scalar α] {s : Store α} {n : Int} {a b : TaskRef}
    (ha : s.UpToDate n a) (hb : s.UpToDate n b)
    (room : ∀ t ∈ [a, b] ++ ((s.spread a).1 ++ (s.spread b).1), (s.taskBody t).checkRoom = .ok ()) :
    s.Mergeable n [a, b] ↔ s.Mergeable n ((s.spread a).1 ++ (s.spread b).1) := by
  have upToDate : ∀ t ∈ (s.spread a).1 ++ (s.spread b).1, s.UpToDate n t :=
    List.forall_mem_append.2 ⟨ha.spreads.below, hb.spreads.below⟩
  have operands : ∀ t ∈ [a, b], s.UpToDate n t :=
    List.forall_mem_cons.2 ⟨ha, List.forall_mem_singleton.2 hb⟩
  have ready : ∀ t ∈ [a, b] ++ ((s.spread a).1 ++ (s.spread b).1), s.UpToDate n t → s.Ready t :=
    fun t ht h => ⟨room t ht, _, Build.attached_eq_ok h.settled⟩
  constructor
  · rintro ⟨-, natural, unit, -, -, r, rows⟩
    rcases ha.merge_sum hb with ⟨m, u, v, -, apart, -⟩ | ⟨whole, -⟩
    · refine ⟨?_, natural, unit, fun t ht => (upToDate t ht).settled.size, ?_, _, apart⟩
      · exact List.append_ne_nil_of_left_ne_nil ha.spreads.nonempty _
      · exact fun t ht => ready t (List.mem_append_right _ ht) (upToDate t ht)
    · exact absurd rows (whole r)
  · rintro ⟨-, natural, unit, -, -, r, rows⟩
    rcases ha.merge_sum hb with ⟨m, u, v, whole, -⟩ | ⟨-, apart⟩
    · refine ⟨List.cons_ne_nil _ _, natural, unit, ?_, ?_, _, whole⟩
      · exact fun t ht => (operands t ht).settled.size
      exact fun t ht => ready t (List.mem_append_left _ ht) (operands t ht)
    · exact absurd rows (apart r)

/-- What follows two lists may as well follow each of them. -/
theorem interleave_perm {β : Type} (u v x y : List β) :
    ((u ++ v) ++ (x ++ y)).Perm ((u ++ x) ++ (v ++ y)) := by
  rw [List.append_assoc, List.append_assoc]
  refine List.Perm.append_left u ?_
  rw [← List.append_assoc, ← List.append_assoc]
  exact List.perm_append_comm.append_right y

namespace Build

variable [Ring α] [Scalar α] {s : Store α} {n : Int} {a b : TaskRef}

/-- As long as there is room, the sum of two tasks can be built just when their
merge can. Both have the same rows, the same constraints in some order and,
without a further gain, the same references: a gain of an operand that is taken
apart is lost, which makes no difference just when it changes nothing in its
reference. -/
theorem addTasks_agrees_iff (ha : s.UpToDate n a) (hb : s.UpToDate n b) :
    ((∀ t ∈ [a, b] ++ ((s.spread a).1 ++ (s.spread b).1), (s.taskBody t).checkRoom = .ok ()) →
      ((∃ t s', (mergeTasks [a, b] n).exec s = (.ok t, s')) ↔
        ∃ t s', (addTasks a b).exec s = (.ok t, s'))) ∧
    ∀ t s₁ u s₂, (mergeTasks [a, b] n).exec s = (.ok t, s₁) → (addTasks a b).exec s = (.ok u, s₂) →
      (s₂.taskBody u).matrix = (s₁.taskBody t).matrix ∧
      ((s₂.taskBody u).constraints).Perm (s₁.taskBody t).constraints ∧
      ((s₂.taskBody u).reference = (s₁.taskBody t).reference ↔ ∀ c ∈ [a, b], dissolves s c →
        (s.taskBody c).GainIdle) ∧
      ((s₂.taskBody u).reference = (s₁.taskBody t).reference →
        (s₂.taskBody u).objective = (s₁.taskBody t).objective) := by
  constructor
  · intro room
    have same := Store.mergeable_spread_iff ha hb room
    constructor
    · rintro ⟨t, s', run⟩
      exact addTasks_succeeds ha hb (same.1 (exec_mergeTasks run).1)
    · rintro ⟨t, s', run⟩
      exact mergeTasks_succeeds (same.2 (exec_addTasks ha hb run).1)
  · intro t s₁ u s₂ merged added
    obtain ⟨-, name, r, rows, body⟩ := exec_mergeTasks merged
    obtain ⟨-, name', r', rows', body'⟩ := exec_addTasks ha hb added
    rcases ha.merge_sum hb with ⟨m, x, y, whole, apart, idle⟩ | ⟨whole, -⟩
    · cases rows.symm.trans whole
      cases rows'.symm.trans apart
      rw [body, body']
      refine ⟨rfl, ?_, ?_, fun reference => TaskBody.objective_congr rfl rfl rfl reference rfl⟩
      · rw [List.map_append, List.flatMap_append, List.map_cons, List.map_cons, List.map_nil,
          List.flatMap_cons, List.flatMap_cons, List.flatMap_nil, List.append_nil,
          ha.spreads.constraints, hb.spreads.constraints]
        exact interleave_perm _ _ _ _
      · rw [← idle]
        exact ⟨fun h => Tensor.vector.inj h, fun h => congrArg Tensor.vector h⟩
    · exact absurd rows (whole r)

/-! ### An aggregate with a gain -/

/-- The exact numbers. -/
instance : Scalar ℚ where
  half := 1 / 2
  inUnitInterval g := decide (0 ≤ g) && decide (g ≤ 1)
  close a b := decide (a = b)

/-- Two tasks over one variable, and an aggregate of the first one with the gain
one half. -/
def halvedTask : Store ℚ :=
  let first : LeafTask ℚ :=
    ⟨⟨"first", 1, .matrix ⟨1, 1, [1], rfl⟩, .vector [1], .scalar 1, none, some .unknown, []⟩,
      .explicit, none⟩
  let second : LeafTask ℚ :=
    ⟨⟨"second", 1, .matrix ⟨1, 1, [2], rfl⟩, .vector [3], .scalar 1, none, some .unknown, []⟩,
      .explicit, none⟩
  let halved : MergedTask ℚ :=
    ⟨⟨"first", 1, .matrix ⟨1, 1, [1], rfl⟩, .vector [1], .scalar (1 / 2), none,
      some .semidefinite, []⟩, []⟩
  { (Store.empty : Store ℚ) with
    leafTasks := ⟨first, #[first, second]⟩
    mergedTasks := ⟨halved, #[halved]⟩ }

theorem halvedTask_upToDate :
    halvedTask.UpToDate 1 (.merged 0 [.leaf 0]) ∧ halvedTask.UpToDate 1 (.leaf 1) := by
  have leaf : ∀ i ∈ [0, 1], halvedTask.UpToDate 1 (.leaf i) := by
    simp only [List.forall_mem_cons]
    refine ⟨.leaf 0 ⟨rfl, ⟨1, rfl⟩, fun _ => rfl⟩, .leaf 1 ⟨rfl, ⟨1, rfl⟩, fun _ => rfl⟩,
      List.forall_mem_nil _⟩
  refine ⟨.merged 0 _ [] (List.cons_ne_nil _ _) ?_ ⟨rfl, ⟨1 / 2, rfl⟩,
    fun _ => rfl⟩ (List.forall_mem_nil _) ?_, leaf 1 (by decide)⟩
  · exact List.forall_mem_singleton.2 (leaf 0 (by decide))
  · with_unfolding_all rfl

/-- The sum of the aggregate and the second task has another reference than their merge. -/
theorem halvedTask_differs :
    ∃ t s₁ u s₂, (mergeTasks [.merged 0 [.leaf 0], .leaf 1] 1).exec halvedTask = (.ok t, s₁) ∧
    (addTasks (.merged 0 [.leaf 0]) (.leaf 1)).exec halvedTask = (.ok u, s₂) ∧
      (s₂.taskBody u).reference ≠ (s₁.taskBody t).reference := by
  obtain ⟨ha, hb⟩ := halvedTask_upToDate
  obtain ⟨succeeds, agree⟩ := addTasks_agrees_iff ha hb
  have merged :
      ∃ t s₁, (mergeTasks [.merged 0 [.leaf 0], .leaf 1] 1).exec halvedTask = (.ok t, s₁) :=
    ⟨_, _, by with_unfolding_all rfl⟩
  have room : ∀ t ∈ [.merged 0 [.leaf 0], .leaf 1, .leaf 0, .leaf 1],
      (halvedTask.taskBody t).checkRoom = .ok () := by
    simpa only [List.forall_mem_cons] using ⟨rfl, rfl, rfl, rfl, List.forall_mem_nil _⟩
  obtain ⟨u, s₂, added⟩ := (succeeds room).1 merged
  obtain ⟨t, s₁, merged⟩ := merged
  refine ⟨t, s₁, u, s₂, merged, added, fun same => ?_⟩
  have idle :=
    (agree t s₁ u s₂ merged added).2.2.1.1 same (.merged 0 [.leaf 0]) List.mem_cons_self rfl
  have scaled : ([1] : List ℚ) = [1].map (1 / 2 * ·) := (TaskBody.gainIdle_iff rfl rfl).1 idle
  exact absurd scaled (by decide +kernel)

end Build

end ControlHierarchy
