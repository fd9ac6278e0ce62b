import ControlHierarchy.Proofs.Store.Action
import ControlHierarchy.Proofs.Store.Notes
import ControlHierarchy.Proofs.Task.Nesting

/-!
# Merging a task again

Whether a tree of tasks is up to date depends on its own cells
(`Store.UpToDate.congr`), and a merge of an aggregate writes to its own cell
only. So an aggregate whose parts are up to date is up to date after a merge
(`Store.upToDate_of_mergeTask`).
-/

namespace ControlHierarchy

variable {α : Type}

mutual

/-- The cells of a task and all below it that are merged. -/
def TaskRef.aggregates : TaskRef → List Nat
  | .leaf _ => []
  | .merged i parts => i :: TaskRef.aggregatesAll parts

def TaskRef.aggregatesAll : List TaskRef → List Nat
  | [] => []
  | t :: rest => t.aggregates ++ TaskRef.aggregatesAll rest

end

theorem TaskRef.aggregatesAll_eq_flatMap (ts : List TaskRef) :
    TaskRef.aggregatesAll ts = ts.flatMap TaskRef.aggregates := by
  induction ts with
  | nil => rfl
  | cons t ts ih => rw [TaskRef.aggregatesAll, ih, List.flatMap_cons]

theorem TaskRef.aggregates_of_mem {i : Nat} {parts : List TaskRef} {p : TaskRef} (h : p ∈ parts) :
    ∀ j ∈ p.aggregates, j ∈ (TaskRef.merged i parts).aggregates := by
  intro j hj
  rw [aggregates, aggregatesAll_eq_flatMap]
  exact List.mem_cons_of_mem i (List.mem_flatMap.2 ⟨p, h, hj⟩)

/-- A merge right after another one changes nothing. -/
theorem MergedTask.regenerate_of_regenerate [Zero α] [One α] [Add α] [Mul α] {c d : MergedTask α}
    {parts : List (TaskBody α)} {events : List Event} (h : c.regenerate parts = .ok (d, events)) :
    ∃ more, d.regenerate parts = .ok (d, more) := by
  obtain ⟨r, merged, h⟩ := bind_eq_ok.1 h
  obtain ⟨rows, leading, h⟩ := bind_eq_ok.1 h
  obtain ⟨fits, h⟩ := then_eq_ok.1 h
  obtain ⟨_, -, h⟩ := bind_eq_ok.1 h
  cases h
  have resized : ∃ more, (c.withRows r parts).resizing rows = .ok more := by
    unfold resizing
    split
    · exact ⟨_, rfl⟩
    · have height : (c.withRows r parts).body.rows = .ok rows := leading
      rw [height]
      exact ⟨_, rfl⟩
  obtain ⟨more, resized⟩ := resized
  refine ⟨more, bind_eq_ok.2 ⟨r, merged, bind_eq_ok.2 ⟨rows, leading, then_eq_ok.2 ⟨fits, ?_⟩⟩⟩⟩
  exact bind_eq_ok.2 ⟨more, resized, rfl⟩

namespace Store

/-- Whatever is read of tasks is the same, and no array was put in the place of a list. -/
structure SameTasks (s t : Store α) (cells : List Nat) : Prop where
  leaves : t.leafTasks = s.leafTasks
  aggregates : ∀ i ∈ cells, t.mergedTasks.read i = s.mergedTasks.read i
  sizes : ∀ o n, s.objectSize o = .ok n → t.objectSize o = .ok n
  lists : ∀ owner field, s.arrayIn? owner field = none → t.arrayIn? owner field = none

variable {s t : Store α} {n : Int} {c : TaskRef}

theorem SameTasks.mono {cells cells' : List Nat} (h : s.SameTasks t cells)
    (fewer : ∀ i ∈ cells', i ∈ cells) :
    s.SameTasks t cells' :=
  { h with aggregates := fun i hi => h.aggregates i (fewer i hi) }

theorem SameTasks.taskBody (h : s.SameTasks t c.aggregates) : t.taskBody c = s.taskBody c := by
  cases c with
  | leaf i => rw [Store.taskBody, Store.taskBody, h.leaves]
  | merged i parts =>
    rw [Store.taskBody, Store.taskBody, h.aggregates i (by simp [TaskRef.aggregates])]

theorem SameTasks.settled (h : s.SameTasks t c.aggregates) (settled : s.Settled n c) :
    t.Settled n c where
  size := by rw [h.taskBody, settled.size]
  gain := by rw [h.taskBody]; exact settled.gain
  lists := fun field => h.lists _ field (settled.lists field)

/-- Whether a tree is up to date depends on its own cells, and on the sizes of
what is attached. -/
theorem UpToDate.congr [Zero α] [One α] [Add α] [Mul α] (upToDate : s.UpToDate n c)
    (h : s.SameTasks t c.aggregates) :
    t.UpToDate n c := by
  induction upToDate with
  | leaf i settled => exact .leaf i (h.settled settled)
  | merged i parts events nonempty below settled own merged ih =>
    have inside : ∀ p ∈ parts, s.SameTasks t p.aggregates :=
      fun p hp => h.mono (TaskRef.aggregates_of_mem hp)
    have bodies : parts.map t.taskBody = parts.map s.taskBody :=
      List.map_congr_left fun p hp => (inside p hp).taskBody
    have read := h.aggregates i (by simp [TaskRef.aggregates])
    refine .merged i parts events nonempty (fun p hp => ih p hp (inside p hp))
      (h.settled settled) ?_ ?_
    · rw [read]
      exact fun o ho => h.sizes o n (own o ho)
    · rw [read, bodies, merged]

/-! ### A merge in the store -/

/-- To drop notes puts no array in the place of a list. -/
theorem arrayIn?_eraseAll {owner other : Object} {fields : List Field} {field : Field}
    (h : s.arrayIn? owner field = none) :
    { s with notes := s.notes.eraseAll other fields }.arrayIn? owner field = none := by
  unfold arrayIn? cellIn? at h ⊢
  rcases s.notes.read?_eraseAll other owner fields field with gone | kept
  · rw [gone]
    rfl
  · rw [kept]
    exact h

/-- The store after a merge of an aggregate. -/
def afterMerge (i : Nat) (parts : List TaskRef) (d : MergedTask α)
    (retired : List (TaskRef × List Object)) (events : List Event) (s : Store α) : Store α :=
  { s with
    mergedTasks := s.mergedTasks.write i d
    notes := s.notes.eraseAll (.task (.merged i parts)) [.constraints, .hessian]
    retired := retired
    journal := s.journal ++ events }

theorem retire_eq (c : TaskRef) : s.retire c = { s with retired := (s.retire c).retired } := by
  unfold retire
  split <;> rfl

variable {i : Nat} {parts : List TaskRef}

/-- A merge of an aggregate whose lists can be gone through. -/
theorem exec_mergeTask [Zero α] [One α] [Add α] [Mul α]
    (tasks : s.arrayIn? (.task (.merged i parts)) (.backing .tasks) = none)
    (own : s.arrayIn? (.task (.merged i parts)) (.backing .ownConstraints) = none) :
    (Build.mergeTask i parts).exec s = (.ok (), t) ↔
      (∃ blank : RowMatrix α,
        RowMatrix.withoutRows (s.mergedTasks.read i).body.size = .ok blank) ∧
      ∃ d events, (s.checkParts (s.mergedTasks.read i).body.size parts = .ok () ∧
          (s.mergedTasks.read i).regenerate (parts.map s.taskBody) = .ok (d, events)) ∧
        t = s.afterMerge i parts d (s.retire (.merged i parts)).retired events := by
  have present : s.taskParts (.merged i parts) = .ok parts := asked_eq_ok _ tasks
  have kept : s.ownConstraints (.merged i parts) = .ok (s.mergedTasks.read i).own :=
    walk_eq_ok _ own
  unfold Build.mergeTask
  rw [Build.exec_bind_ok Build.exec_get, Build.exec_lift_bind_eq_ok, Build.exec_lift_ok present,
    kept, Build.exec_lift_bind_eq_ok, retire_eq, exists_and_right, Prod.exists]
  refine and_congr_right fun _ => exists_congr fun d => exists_congr fun events => ?_
  exact and_congr then_eq_ok Build.exec_set_eq_ok

variable {d : MergedTask α} {retired : List (TaskRef × List Object)} {events : List Event}
    {cells : List Nat}

/-- A merge that keeps the size of the aggregate concerns no task above which
the aggregate is not. -/
theorem sameTasks_afterMerge (size : d.body.size = (s.mergedTasks.read i).body.size)
    (apart : i ∉ cells) :
    s.SameTasks (s.afterMerge i parts d retired events) cells where
  leaves := rfl
  aggregates j hj := Cells.read_write_of_ne _ _ fun here => apart (here ▸ hj)
  sizes o n h := by
    have noted :
        (s.notes.eraseAll (.task (.merged i parts)) [.constraints, .hessian]).read? o .size =
          s.notes.read? o .size :=
      s.notes.read?_eraseAll_of_not_mem _ o (by decide)
    cases o with
    | task u =>
      cases u with
      | leaf j => exact h
      | merged j parts =>
        rw [← h]
        refine congrArg Except.ok ?_
        by_cases here : j = i
        · rw [here, taskBody, taskBody, afterMerge, Cells.read_write_self, size]
        · rw [taskBody, taskBody, afterMerge, Cells.read_write_of_ne _ _ here]
    | constraint c => exact h
    | stack j => exact h
    | _ =>
      simp only [objectSize, afterMerge] at h ⊢
      rw [noted]
      exact h
  lists _ _ := arrayIn?_eraseAll

/-- A merge of an aggregate whose parts are up to date brings it up to date. -/
theorem upToDate_of_mergeTask [Zero α] [One α] [Add α] [Mul α] (nonempty : parts ≠ [])
    (below : ∀ p ∈ parts, s.UpToDate n p) (apart : ∀ p ∈ parts, i ∉ p.aggregates)
    (settled : s.Settled n (.merged i parts))
    (own : ∀ o ∈ (s.mergedTasks.read i).own, s.objectSize o = .ok n)
    (run : (Build.mergeTask i parts).exec s = (.ok (), t)) :
    t.UpToDate n (.merged i parts) := by
  obtain ⟨-, d, events, ⟨-, merged⟩, rest⟩ :=
    (exec_mergeTask (settled.lists _) (settled.lists _)).1 run
  generalize (s.retire (.merged i parts)).retired = retired at rest
  subst rest
  obtain ⟨more, again⟩ := MergedTask.regenerate_of_regenerate merged
  obtain ⟨r, -, rows⟩ := MergedTask.withRows_of_regenerate merged
  have size : d.body.size = (s.mergedTasks.read i).body.size := by rw [rows]; rfl
  have gain : d.body.gain = (s.mergedTasks.read i).body.gain := by rw [rows]; rfl
  have attached : d.own = (s.mergedTasks.read i).own := by rw [rows]; rfl
  have same : ∀ {cells}, i ∉ cells → s.SameTasks (s.afterMerge i parts d retired events) cells :=
    sameTasks_afterMerge size
  have bodies : parts.map (s.afterMerge i parts d retired events).taskBody = parts.map s.taskBody :=
    List.map_congr_left fun p hp => (same (apart p hp)).taskBody
  have read : (s.afterMerge i parts d retired events).mergedTasks.read i = d :=
    Cells.read_write_self _ _ _
  refine .merged i parts more nonempty (fun p hp => (below p hp).congr (same (apart p hp)))
    ⟨?_, ?_, ?_⟩ ?_ ?_
  · rw [taskBody, read, size]
    exact settled.size
  · rw [taskBody, read, gain]
    exact settled.gain
  · exact fun field => (same List.not_mem_nil).lists _ field (settled.lists field)
  · rw [read, attached]
    exact fun o ho => (same List.not_mem_nil).sizes o n (own o ho)
  · rw [read, bodies]
    exact again

end Store

end ControlHierarchy
