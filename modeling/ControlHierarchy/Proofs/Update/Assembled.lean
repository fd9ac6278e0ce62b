import ControlHierarchy.Proofs.Store.Addition
import ControlHierarchy.Proofs.Update.Current

/-!
# Aggregates of tasks that were just built

There are three ways to build an aggregate of tasks: from its parts as they are,
from its parts at a state, and as a sum. All of them store an aggregate that has
the rows and the constraints of its parts as they are at that moment, a unit gain
and no weight of its own (`Store.Assembled`). Only a sum comes with objects that
are attached to it: what was attached to the operands that it takes apart.
-/

namespace ControlHierarchy

variable {α : Type} [Zero α] [One α] [Add α] [Mul α] [Scalar α]

/-- An aggregate was stored that merges some parts as they were right before, with some
objects attached to it. -/
structure Store.Assembled (s : Store α) (name : String) (n : Int) (parts : List TaskRef)
    (own : List Object) (r : TaskRef) (t : Store α) : Prop where
  natural : 0 ≤ n
  unit : Scalar.inUnitInterval (1 : α)
  new : r = .merged s.mergedTasks.next parts
  stored : ∃ rows events, TaskRows.merge n (parts.map s.taskBody) = .ok rows ∧
    t = { s.withLog events with
      mergedTasks := s.mergedTasks.write s.mergedTasks.next
        ⟨⟨name, n, rows.matrix, rows.reference, .scalar 1, none, some .semidefinite,
          (parts.map s.taskBody).flatMap TaskBody.constraints ++ own⟩, own⟩ }

/-- The other tasks are as they were. -/
theorem Store.Assembled.taskBody_of_has {s t : Store α} {name : String} {n : Int}
    {parts : List TaskRef} {own : List Object} {r p : TaskRef}
    (h : s.Assembled name n parts own r t) (exist : s.Has (.task p)) :
    t.taskBody p = s.taskBody p := by
  obtain ⟨-, -, -, rows, events, -, rfl⟩ := h
  cases p with
  | leaf j => rfl
  | merged j more =>
    exact congrArg MergedTask.body (Cells.read_write_of_ne _ _ (Nat.ne_of_lt exist))

theorem Store.Assembled.has {s t : Store α} {name : String} {n : Int} {parts : List TaskRef}
    {own : List Object} {r : TaskRef} (h : s.Assembled name n parts own r t) :
    t.Has (.task r) := by
  obtain ⟨-, -, rfl, rows, events, -, rfl⟩ := h
  exact Cells.lt_next_write _ _ _

/-- What the new aggregate holds. -/
theorem Store.Assembled.exists_rows {s t : Store α} {name : String} {n : Int}
    {parts : List TaskRef} {own : List Object} {r : TaskRef}
    (h : s.Assembled name n parts own r t) :
    ∃ rows, TaskRows.merge n (parts.map s.taskBody) = .ok rows ∧
      t.taskBody r = ⟨name, n, rows.matrix, rows.reference, .scalar 1, none, some .semidefinite,
        (parts.map s.taskBody).flatMap TaskBody.constraints ++ own⟩ ∧
      t.attachedTo (.task r) = own := by
  obtain ⟨-, -, rfl, rows, events, merged, rfl⟩ := h
  refine ⟨rows, merged, ?_, ?_⟩
  · rw [taskBody, Cells.read_write_self]
  · rw [attachedTo, Cells.read_write_self]

namespace Build

variable {s s' t : Store α} {n : Int} {parts : List TaskRef} {r : TaskRef} {d : MergedTask α}

theorem assembled_of_mergedTask {own : List Object}
    (made : (mergedTask parts n).exec s = (.ok d, s'))
    (stored : (newMergedTask parts (d.attachAll own)).exec s' = (.ok r, t)) :
    s.Assembled (joinNames (parts.map fun p => (s.taskBody p).name)) n parts own r t := by
  obtain ⟨mergeable, rows, events, merged, rfl, rfl⟩ := exec_mergedTask made
  cases stored
  exact ⟨mergeable.natural, mergeable.unit, rfl, rows, events, merged, rfl⟩

theorem assembled_mergeTasks (run : (mergeTasks parts n).exec s = (.ok r, t)) :
    s.Assembled (joinNames (parts.map fun p => (s.taskBody p).name)) n parts [] r t := by
  rw [mergeTasks_eq] at run
  obtain ⟨d, s', made, stored⟩ := exec_bind_eq_ok.1 run
  rw [← d.attachAll_nil] at stored
  exact assembled_of_mergedTask made stored

theorem assembled_addTasks {a b : TaskRef} (run : (addTasks a b).exec s = (.ok r, t)) :
    ∃ parts own parts' own', summands s a = .ok (parts, own) ∧ summands s b = .ok (parts', own') ∧
      s.Assembled (joinNames ((parts ++ parts').map fun p => (s.taskBody p).name))
        (s.taskBody a).size (parts ++ parts') (own ++ own') r t := by
  obtain ⟨-, -, parts, own, parts', own', first, second, d, s', made, -, stored⟩ :=
    addTasks_eq_ok.1 run
  exact ⟨parts, own, parts', own', first, second, assembled_of_mergedTask made stored⟩

/-- The parts are brought up to date with the state first. -/
theorem assembled_mergeTasksAtState [Sub α] [Neg α] [BoundScalar α] {state : ArrayData α}
    (run : (mergeTasksAtState parts state).exec s = (.ok r, t)) :
    ∃ n x event steps s', (performAll (.shaped x) steps).exec (s.withLog [event]) = (.ok (), s') ∧
      s'.Assembled (joinNames (parts.map fun p => (s.taskBody p).name)) n parts [] r t := by
  unfold mergeTasksAtState at run
  obtain ⟨x, -, run⟩ := exec_lift_bind_eq_ok.1 run
  obtain ⟨n, -, run⟩ := exec_lift_bind_eq_ok.1 run
  obtain ⟨blank, s₁, prepared, run⟩ := exec_bind_eq_ok.1 run
  obtain ⟨⟨-, natural, unit, -⟩, k, event, rfl, rfl⟩ := exec_prepareTask prepared
  rw [exec_bind_ok exec_get] at run
  obtain ⟨⟨⟩, s', performed, run⟩ := exec_bind_eq_ok.1 run
  obtain ⟨d, s₂, merged, stored⟩ := exec_bind_eq_ok.1 run
  obtain ⟨-, rows, events, merge, rfl, rfl⟩ := exec_firstMerge merged
  cases stored
  refine ⟨n, x, event, _, s', performed, natural, unit, rfl, rows, events, merge, ?_⟩
  simp only [MergedTask.withRows, List.append_nil]
  rfl

end Build

end ControlHierarchy
