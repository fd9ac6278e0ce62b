import ControlHierarchy.Proofs.Constraint.Nesting
import ControlHierarchy.Proofs.Task.Nesting
import Mathlib.Data.List.TakeDrop
import Mathlib.Data.List.TakeWhile

/-!
# Aggregates that are not stored

A merge that is only computed leaves the store alone, but for the journal, and
gives the arrays that merging the parts as they are gives
(`exec_mergedConstraint`, `exec_mergedTask`). A merge of tasks succeeds just
when nothing stands against it in the store: there are parts, of the right size,
a merge does not come to an end at any of them, and their rows fit together
(`Store.Mergeable`, `mergeTasks_succeeds`).
-/

namespace ControlHierarchy

variable {α : Type}

/-! ### Constraints -/

namespace Build

/-- To look for the constraints among objects changes nothing. -/
theorem onlyLogs_objectsToMerge (os : List Object) (policy : Literal) :
    OnlyLogs (objectsToMerge os policy : Build α (List ConstraintRef)) := by
  unfold objectsToMerge
  split
  · exact onlyLogs_pure _
  · exact onlyLogs_bind (onlyLogs_lift _) fun _ => onlyLogs_throw _

theorem onlyLogs_prepareConstraint (parts : List ConstraintRef) (size : Int) (policy : Literal) :
    OnlyLogs (prepareConstraint parts size policy : Build α (MergedConstraint α)) := by
  unfold prepareConstraint
  refine onlyLogs_bind onlyLogs_get fun s => ?_
  refine onlyLogs_ite (onlyLogs_bind (onlyLogs_throw _) fun _ => ?_) ?_
  all_goals
    refine onlyLogs_bind (onlyLogs_lift _) fun p => onlyLogs_bind (onlyLogs_lift _) fun system => ?_
    exact onlyLogs_bind (onlyLogs_lift _) fun _ => onlyLogs_bind (onlyLogs_log _) fun _ =>
      onlyLogs_pure _

theorem onlyLogs_mergedConstraint [Zero α] [Neg α] [BoundScalar α] (parts : List ConstraintRef)
    (size : Int) (policy : Literal) :
    OnlyLogs (mergedConstraint parts size policy : Build α (MergedConstraint α)) :=
  onlyLogs_bind (onlyLogs_prepareConstraint parts size policy) fun _ =>
    onlyLogs_bind onlyLogs_get fun _ => onlyLogs_lift _

/-- Objects can be merged just when they are all constraints. -/
theorem mapM_asConstraint {os : List Object} {parts : List ConstraintRef} :
    os.mapM Object.asConstraint = .ok parts ↔ os = parts.map Object.constraint := by
  induction os generalizing parts with
  | nil => cases parts <;> simp [pure_eq_ok]
  | cons o os ih =>
    rw [List.mapM_cons, bind_eq_ok]
    constructor
    · rintro ⟨c, asked, rest⟩
      obtain ⟨cs, found, rest⟩ := bind_eq_ok.1 rest
      cases rest
      cases o with
      | constraint d =>
        cases asked
        rw [ih.1 found, List.map_cons]
      | _ => cases asked
    · intro h
      obtain ⟨c, cs, rfl, rfl, rfl⟩ := List.map_eq_cons_iff.1 h.symm
      exact ⟨c, rfl, bind_eq_ok.2 ⟨cs, ih.2 rfl, rfl⟩⟩

theorem exec_objectsToMerge {s t : Store α} {os : List Object} {policy : Literal}
    {parts : List ConstraintRef} (run : (objectsToMerge os policy).exec s = (.ok parts, t)) :
    os = parts.map Object.constraint ∧ t = s := by
  unfold objectsToMerge at run
  split at run
  · next found =>
    cases run
    exact ⟨mapM_asConstraint.1 found, rfl⟩
  · obtain ⟨p, -, run⟩ := exec_lift_bind_eq_ok.1 run
    cases run

theorem exec_objectsToMerge_map (s : Store α) (parts : List ConstraintRef) (policy : Literal) :
    (objectsToMerge (parts.map Object.constraint) policy).exec s = (.ok parts, s) := by
  unfold objectsToMerge
  rw [mapM_asConstraint.2 rfl]
  rfl

variable {s t : Store α} {parts : List ConstraintRef} {size : Int} {policy : Literal}
    {c : MergedConstraint α}

theorem exec_prepareConstraint (run : (prepareConstraint parts size policy).exec s = (.ok c, t)) :
    (∃ p, Policy.validate policy = .ok p ∧ c.policy = p.word) ∧ c.size = size ∧
    ∃ events, t = s.withLog events := by
  have logs := (onlyLogs_prepareConstraint _ _ _).of_exec run
  unfold prepareConstraint at run
  rw [exec_bind_ok exec_get] at run
  split at run
  · cases run
  · obtain ⟨p, valid, run⟩ := exec_lift_bind_eq_ok.1 run
    obtain ⟨system, -, run⟩ := exec_lift_bind_eq_ok.1 run
    obtain ⟨_, -, run⟩ := exec_lift_bind_eq_ok.1 run
    cases run
    exact ⟨⟨p, valid, rfl⟩, rfl, logs⟩

/-- What a successful merge gives. -/
theorem exec_mergedConstraint [Zero α] [Neg α] [BoundScalar α]
    (run : (mergedConstraint parts size policy).exec s = (.ok c, t)) :
    ∃ p name, Policy.validate policy = .ok p ∧
    LinearSystem.merge p name size (parts.map s.part) = .ok c.system := by
  obtain ⟨blank, s₁, prepared, run⟩ := exec_bind_eq_ok.1 run
  obtain ⟨⟨p, valid, word⟩, rfl, events, rfl⟩ := exec_prepareConstraint prepared
  rw [exec_bind_ok exec_get] at run
  obtain ⟨merged, -⟩ := Prod.mk.inj run
  obtain ⟨system, merge, rfl⟩ :=
    MergedConstraint.regenerate_eq_ok.1 (Store.regenerate_of_remerged merged)
  rw [word, Policy.ofWord_word] at merge
  exact ⟨p, blank.name, valid, merge⟩

end Build

/-! ### Tasks -/

namespace Store

variable {s : Store α} {n : Int} {parts : List TaskRef}

@[simp] theorem objectSize_withLog (events : List Event) (o : Object) :
    (s.withLog events).objectSize o = s.objectSize o := by
  cases o <;> rfl

theorem checkSizes_eq_ok {owner : String} {sizes : List (String × Int)} :
    checkSizes owner n sizes = .ok () ↔ ∀ p ∈ sizes, p.2 = n := by
  induction sizes with
  | nil => simp [checkSizes]
  | cons p sizes ih =>
    rw [checkSizes, List.forall_mem_cons, ← ih]
    by_cases same : p.2 = n
    · rw [if_neg (not_not.2 same)]
      exact (and_iff_right same).symm
    · rw [if_pos same]
      exact iff_of_false (fun h => nomatch h) fun h => same h.1

/-- A merge does not come to an end at a part. -/
def Ready (s : Store α) (t : TaskRef) : Prop :=
  (s.taskBody t).checkRoom = .ok () ∧ ∃ own, s.attached t = .ok own

theorem ready_iff {t : TaskRef} :
    s.Ready t ↔ ((s.taskBody t).checkRoom.isOk && (s.attached t).isOk) = true := by
  unfold Ready
  cases (s.taskBody t).checkRoom <;> cases s.attached t <;> simp [Except.isOk, Except.toBool]

theorem checkParts_eq_ok [Zero α] [One α] [Add α] [Mul α] :
    s.checkParts n parts = .ok () ↔ ∀ t ∈ parts, s.Ready t := by
  unfold checkParts
  rw [List.span_eq_takeWhile_dropWhile]
  cases rest : parts.dropWhile fun t => (s.taskBody t).checkRoom.isOk && (s.attached t).isOk with
  | nil =>
    refine iff_of_true rfl fun t ht => ?_
    exact ready_iff.2 (List.dropWhile_eq_nil_iff.1 rest t ht)
  | cons culprit more =>
    have stuck : ¬s.Ready culprit := by
      rw [ready_iff, Bool.not_eq_true]
      have first :=
        List.head?_dropWhile_not
          (fun t => (s.taskBody t).checkRoom.isOk && (s.attached t).isOk) parts
      rwa [rest] at first
    have member : culprit ∈ parts := (List.dropWhile_sublist _).subset (rest ▸ List.mem_cons_self)
    refine iff_of_false (fun h => stuck ?_) fun h => stuck (h culprit member)
    obtain ⟨_, -, h⟩ := bind_eq_ok.1 h
    obtain ⟨room, h⟩ := then_eq_ok.1 h
    obtain ⟨_, -, h⟩ := bind_eq_ok.1 h
    obtain ⟨own, attached, -⟩ := bind_eq_ok.1 h
    exact ⟨room, own, attached⟩

/-- The parts of an aggregate can be merged. -/
structure Mergeable [Zero α] [One α] [Add α] [Mul α] [Scalar α] (s : Store α) (n : Int)
    (parts : List TaskRef) : Prop where
  nonempty : parts ≠ []
  natural : 0 ≤ n
  unit : Scalar.inUnitInterval (1 : α)
  sizes : ∀ t ∈ parts, (s.taskBody t).size = n
  ready : ∀ t ∈ parts, s.Ready t
  rows : ∃ r, TaskRows.merge n (parts.map s.taskBody) = .ok r

end Store

namespace Build

theorem exec_forM_log (events : List Event) (s : Store α) :
    (events.forM log).exec s = (.ok (), s.withLog events) := by
  induction events generalizing s with
  | nil => rw [Store.withLog_nil]; rfl
  | cons event events ih =>
    change (log event >>= fun _ => events.forM log).exec s = _
    have first : (log event).exec s = (.ok (), s.withLog [event]) := rfl
    rw [exec_bind_ok first, ih, Store.withLog_withLog]
    rfl

theorem onlyLogs_forM_log (events : List Event) : OnlyLogs (events.forM log : Build α Unit) := by
  intro s
  rw [exec_forM_log]
  exact ⟨events, rfl⟩

section Preparation

variable [One α] [Scalar α] {s s' : Store α} {n : Int} {parts : List TaskRef} {t : MergedTask α}

theorem onlyLogs_prepareTask (parts : List TaskRef) (size : Int) :
    OnlyLogs (prepareTask parts size : Build α (MergedTask α)) := by
  unfold prepareTask
  refine onlyLogs_bind onlyLogs_get fun s => ?_
  refine onlyLogs_ite (onlyLogs_bind (onlyLogs_throw _) fun _ => ?_) ?_
  all_goals
    refine onlyLogs_bind (onlyLogs_lift _) fun p => onlyLogs_bind (onlyLogs_lift _) fun _ => ?_
    exact onlyLogs_bind (onlyLogs_log _) fun _ => onlyLogs_pure _

theorem exec_prepareTask (run : (prepareTask parts n).exec s = (.ok t, s')) :
    (parts ≠ [] ∧ 0 ≤ n ∧ Scalar.inUnitInterval (1 : α) ∧ ∀ t ∈ parts, (s.taskBody t).size = n) ∧
    ∃ k event,
      t = ⟨⟨joinNames (parts.map fun p => (s.taskBody p).name), n, .matrix k, .vector [],
        .scalar 1, none, some .unknown, []⟩, []⟩ ∧ s' = s.withLog [event] := by
  unfold prepareTask at run
  rw [exec_bind_ok exec_get] at run
  split at run
  · cases run
  · next nonempty =>
    obtain ⟨body, made, run⟩ := exec_lift_bind_eq_ok.1 run
    obtain ⟨_, sizes, run⟩ := exec_lift_bind_eq_ok.1 run
    obtain ⟨natural, unit, k, -, rfl⟩ := TaskBody.blank_eq_ok.1 made
    cases run
    refine ⟨⟨fun none => nonempty (List.isEmpty_iff.2 none), natural, unit, ?_⟩, k, _, rfl, rfl⟩
    exact List.forall_mem_map.1 (Store.checkSizes_eq_ok.1 sizes)

theorem prepareTask_succeeds {k : RowMatrix α} (nonempty : parts ≠ []) (natural : 0 ≤ n)
    (unit : Scalar.inUnitInterval (1 : α)) (sizes : ∀ t ∈ parts, (s.taskBody t).size = n)
    (start : RowMatrix.withoutRows n = .ok k) :
    ∃ t s', (prepareTask parts n).exec s = (.ok t, s') := by
  unfold prepareTask
  have passed : ∀ owner, checkSizes owner n (s.taskSizes parts) = .ok () :=
    fun owner => Store.checkSizes_eq_ok.2 (List.forall_mem_map.2 sizes)
  rw [exec_bind_ok exec_get, if_neg (fun none => nonempty (List.isEmpty_iff.1 none)),
    exec_lift_ok (TaskBody.blank_eq_ok.2 ⟨natural, unit, k, start, rfl⟩), exec_lift_ok (passed _)]
  exact ⟨_, _, rfl⟩

end Preparation

variable [Zero α] [One α] [Add α] [Mul α] {s s' : Store α} {n : Int} {parts : List TaskRef}
    {t d : MergedTask α}

theorem onlyLogs_firstMerge [Scalar α] (parts : List TaskRef) (d : MergedTask α) :
    OnlyLogs (firstMerge parts d) := by
  unfold firstMerge
  refine onlyLogs_bind onlyLogs_get fun s => onlyLogs_bind (onlyLogs_lift _) fun merged => ?_
  exact onlyLogs_bind (onlyLogs_forM_log _) fun _ => onlyLogs_pure _

theorem exec_firstMerge [Scalar α] (run : (firstMerge parts t).exec s = (.ok d, s')) :
    (∀ t ∈ parts, s.Ready t) ∧ ∃ r events,
    TaskRows.merge t.body.size (parts.map s.taskBody) = .ok r ∧
    d = t.withRows r (parts.map s.taskBody) ∧
      s' = s.withLog events := by
  unfold firstMerge at run
  rw [exec_bind_ok exec_get] at run
  obtain ⟨⟨merged, events⟩, regenerated, run⟩ := exec_lift_bind_eq_ok.1 run
  obtain ⟨ready, regenerated⟩ := then_eq_ok.1 regenerated
  obtain ⟨r, rows, rfl⟩ := MergedTask.withRows_of_regenerate regenerated
  rw [exec_bind_ok (exec_forM_log _ _)] at run
  cases run
  exact ⟨Store.checkParts_eq_ok.1 ready, r, events, rows, rfl, rfl⟩

theorem firstMerge_succeeds [Scalar α] {r : TaskRows α} {m : RowMatrix α}
    (ready : ∀ t ∈ parts, s.Ready t) (weight : t.body.weight = none)
    (matrix : t.body.matrix = .matrix m)
    (rows : TaskRows.merge t.body.size (parts.map s.taskBody) = .ok r) :
    ∃ d s', (firstMerge parts t).exec s = (.ok d, s') := by
  obtain ⟨events, regenerated⟩ := MergedTask.regenerate_of_merge weight matrix rows
  have run : s.remergedTask t parts (.ok []) = .ok (t.withRows r (parts.map s.taskBody), events) :=
    then_eq_ok.2 ⟨Store.checkParts_eq_ok.2 ready, regenerated⟩
  unfold firstMerge
  rw [exec_bind_ok exec_get, exec_lift_ok run, exec_bind_ok (exec_forM_log _ _)]
  exact ⟨_, _, rfl⟩

variable [Scalar α]

/-- An aggregate of tasks, merged but not stored. -/
def mergedTask (parts : List TaskRef) (size : Int) : Build α (MergedTask α) := do
  firstMerge parts (← prepareTask parts size)

/-- What merging tasks gives. -/
theorem exec_mergedTask (run : (mergedTask parts n).exec s = (.ok t, s')) :
    s.Mergeable n parts ∧ ∃ r events,
    TaskRows.merge n (parts.map s.taskBody) = .ok r ∧ s' = s.withLog events ∧
      t = ⟨⟨joinNames (parts.map fun p => (s.taskBody p).name), n, r.matrix, r.reference,
        .scalar 1, none, some .semidefinite,
        (parts.map s.taskBody).flatMap TaskBody.constraints⟩, []⟩ := by
  obtain ⟨blank, s₁, prepared, run⟩ := exec_bind_eq_ok.1 run
  obtain ⟨⟨nonempty, natural, unit, sizes⟩, k, event, rfl, rfl⟩ := exec_prepareTask prepared
  obtain ⟨ready, r, events, rows, rfl, rfl⟩ := exec_firstMerge run
  refine ⟨⟨nonempty, natural, unit, sizes, ready, r, rows⟩, r, _, rows,
    Store.withLog_withLog _ _ _, ?_⟩
  simp only [MergedTask.withRows, List.append_nil]
  rfl

theorem mergedTask_succeeds (h : s.Mergeable n parts) :
    ∃ t s', (mergedTask parts n).exec s = (.ok t, s') := by
  obtain ⟨r, rows⟩ := h.rows
  obtain ⟨k, start, -⟩ := bind_eq_ok.1 rows
  obtain ⟨t, s₁, prepared⟩ := prepareTask_succeeds h.nonempty h.natural h.unit h.sizes start
  unfold mergedTask
  rw [exec_bind_ok prepared]
  obtain ⟨-, k, event, rfl, rfl⟩ := exec_prepareTask prepared
  exact firstMerge_succeeds h.ready rfl rfl rows

omit [Zero α] [One α] [Add α] [Mul α] [Scalar α] in
theorem exec_newMergedTask {u : TaskRef} (run : (newMergedTask parts t).exec s = (.ok u, s')) :
    s'.taskBody u = t.body := by
  cases run
  exact congrArg MergedTask.body (Cells.read_write_self _ _ _)

theorem mergeTasks_eq :
    mergeTasks parts n = mergedTask parts n >>= newMergedTask (α := α) parts := by
  unfold mergeTasks mergedTask
  rw [bind_assoc]

theorem exec_mergeTasks {u : TaskRef} (run : (mergeTasks parts n).exec s = (.ok u, s')) :
    s.Mergeable n parts ∧ ∃ name r,
    TaskRows.merge n (parts.map s.taskBody) = .ok r ∧
    s'.taskBody u = ⟨name, n, r.matrix, r.reference, .scalar 1, none,
      some .semidefinite, (parts.map s.taskBody).flatMap TaskBody.constraints⟩ := by
  rw [mergeTasks_eq] at run
  obtain ⟨t, s₁, made, stored⟩ := exec_bind_eq_ok.1 run
  obtain ⟨mergeable, r, events, rows, -, rfl⟩ := exec_mergedTask made
  exact ⟨mergeable, _, r, rows, exec_newMergedTask stored⟩

theorem mergeTasks_succeeds (h : s.Mergeable n parts) :
    ∃ u s', (mergeTasks parts n).exec s = (.ok u, s') := by
  obtain ⟨t, s₁, made⟩ := mergedTask_succeeds h
  rw [mergeTasks_eq, exec_bind_ok made]
  exact ⟨_, _, rfl⟩

end Build

end ControlHierarchy
