import ControlHierarchy.Proofs.Store.Quadratic
import ControlHierarchy.Proofs.Update.Labels
import Mathlib.Algebra.Order.Ring.Rat

/-!
# Runs of aggregates of tasks

In a run tasks are put into aggregates, updated and merged again, and weights and
gains are set and reset, by calls that may fail anywhere; between the calls
anything may happen to everything else (`Labelling`). Every aggregate that was
built has the label of a merge and an objective, and the label is right just when
the weight is nonnegative on what the rows reach (`Labelling.truthful`). A
symmetric weight that is not breaks it (`flippedPair_mislabelled`).
-/

namespace ControlHierarchy

open Matrix

variable {α : Type}

/-- A call that makes a task or an aggregate of tasks, merges aggregates again, or
changes a task in place. -/
inductive TaskCall (α : Type)
  | declare (t : LeafTask α) (number : ∃ g, t.body.gain = .scalar g)
  | merge (parts : List TaskRef) (size : Int)
  | mergeAtState (parts : List TaskRef) (state : ArrayData α)
  | add (a b : TaskRef)
  | attach (t : TaskRef) (o : Object)
  | update (state : ArrayData α) (o : Object)
  | regenerate (o : Object)
  | setWeight (t : TaskRef) (weight : ArrayData α)
  | resetWeight (t : TaskRef)
  | setGain (t : TaskRef) (gain : Option α)

section Calls

variable [Zero α] [One α] [Add α] [Sub α] [Mul α] [Neg α] [Scalar α] [BoundScalar α]

/-- Performs a call, which returns the task that it makes, if it makes one. -/
def TaskCall.perform : TaskCall α → Build α (Option TaskRef)
  | declare t _ => do return some (← Build.newLeafTask t)
  | merge parts size => do return some (← Build.mergeTasks parts size)
  | mergeAtState parts state => do return some (← Build.mergeTasksAtState parts state)
  | add a b => do return some (← Build.addTasks a b)
  | attach t o => do
    Build.attach t o
    return none
  | update state o => do
    Build.update state o
    return none
  | regenerate o => do
    Build.regenerate o
    return none
  | setWeight t weight => do
    Build.changeTask t (TaskBody.setWeight weight)
    return none
  | resetWeight t => do
    Build.changeTask t fun body => .ok body.resetWeight
    return none
  | setGain t gain => do
    Build.changeTask t (TaskBody.setGain gain)
    return none

/-- After any call, whatever its outcome, the aggregates are labelled that were,
and the one that was built. -/
theorem TaskCall.labelled_perform {s : Store α} {built : Set Nat} (h : s.TasksLabelled built)
    (call : TaskCall α) :
    (call.perform.exec s).2.TasksLabelled (labelledBy built (call.perform.exec s).1) := by
  have unbuilt : ∀ r : Except Error Unit, labelledBy built (r.map fun _ => none) = built := by
    rintro (_ | _) <;> rfl
  have kept {action : Build α Unit} (keeps : Build.Keeps built action fun _ => True) :
      (action.exec s).2.TasksLabelled
        (labelledBy built ((action.exec s).1.map fun _ => none)) := by
    rw [unbuilt]
    exact (keeps s h).1
  cases call <;> rw [perform, Build.exec_bind_pure]
  case declare t number => exact Build.delivers_newLeafTask number s h
  case merge parts size => exact Build.delivers_mergeTasks parts size s h
  case mergeAtState parts state => exact Build.delivers_mergeTasksAtState parts state s h
  case add a b => exact Build.delivers_addTasks a b s h
  case attach t o => exact kept (Build.keeps_attach t o)
  case update state o => exact kept (Build.keeps_update state o)
  case regenerate o => exact kept (Build.keeps_regenerate o)
  case setWeight t weight =>
    exact kept (Build.keeps_changeTask (TaskBody.mild_setWeight weight) t)
  case resetWeight t => exact kept (Build.keeps_changeTask TaskBody.mild_resetWeight t)
  case setGain t gain => exact kept (Build.keeps_changeTask (TaskBody.mild_setGain gain) t)

end Calls

/-! ### Runs -/

/-- One store has the tasks of the other, as far as objectives and labels are
concerned: all gains are still numbers, and the aggregates in some cells have at
most other constraints. -/
structure Store.SparesTasks (built : Set Nat) (s t : Store α) : Prop where
  leaves : ∀ i, ∃ g, (t.leafTasks.read i).body.gain = .scalar g
  aggregates : ∀ i, ∃ g, (t.mergedTasks.read i).body.gain = .scalar g
  next : s.mergedTasks.next ≤ t.mergedTasks.next
  cells : ∀ i ∈ built, ∃ constraints, (t.mergedTasks.read i).body =
    { (s.mergedTasks.read i).body with constraints := constraints }

theorem Store.TasksLabelled.spares {s t : Store α} {built : Set Nat} (h : s.TasksLabelled built)
    (change : Store.SparesTasks built s t) : t.TasksLabelled built where
  leaves := change.leaves
  aggregates := change.aggregates
  old i hi := (h.old i hi).trans_le change.next
  labelled i hi := by
    obtain ⟨constraints, same⟩ := change.cells i hi
    rw [same]
    exact ⟨(h.labelled i hi).label, (h.labelled i hi).arrays⟩

section Runs

variable [Zero α] [One α] [Add α] [Sub α] [Mul α] [Neg α] [Scalar α] [BoundScalar α]

/-- The stores that calls lead to, failed ones included, with the cells of the
aggregates that were built. Between the calls anything may happen to everything
else. -/
inductive Labelling : Store α → Set Nat → Prop
  | start : Labelling .empty ∅
  | elsewhere {s t : Store α} {built : Set Nat} (before : Labelling s built)
      (change : Store.SparesTasks built s t) : Labelling t built
  | call {s t : Store α} {built : Set Nat} {call : TaskCall α}
      {outcome : Except Error (Option TaskRef)} (before : Labelling s built)
      (run : call.perform.exec s = (outcome, t)) : Labelling t (labelledBy built outcome)

variable {s : Store α} {built : Set Nat}

theorem Labelling.labelled (h : Labelling s built) : s.TasksLabelled built := by
  induction h with
  | start => exact .start
  | elsewhere before change ih => exact ih.spares change
  | @call _ _ _ call _ before run ih =>
    have labelled := call.labelled_perform ih
    rw [run] at labelled
    exact labelled

end Runs

/-- In every run, every aggregate that was built has the label of a semidefinite
Hessian and an objective, whose Hessian is `Aᵀ W A`. The label is right just when
the weight is nonnegative on what the rows reach: in particular as long as no
weight is set on the aggregate, or a semidefinite one. -/
theorem Labelling.truthful [CommRing α] [LinearOrder α] [IsStrictOrderedRing α] [Scalar α]
    [BoundScalar α] {s : Store α} {built : Set Nat} (h : Labelling s built) {i : Nat}
    (member : i ∈ built) :
    (s.mergedTasks.read i).body.hessian = some .semidefinite ∧
    ∃ (n : ℕ) (q : LeastSquares α n), (s.mergedTasks.read i).body.size = n ∧
      (s.mergedTasks.read i).body.Poses q ∧
      (s.mergedTasks.read i).body.objective = .ok (.of q.own) ∧
      (Semidefinite q.own.1 ↔ ∀ x, 0 ≤ (q.rows *ᵥ x) ⬝ᵥ q.weight *ᵥ (q.rows *ᵥ x)) ∧
      ((s.mergedTasks.read i).body.weight = none ∨ Semidefinite q.weight →
        Semidefinite q.own.1) := by
  have labelled := h.labelled.labelled i member
  obtain ⟨g, gain⟩ := h.labelled.aggregates i
  obtain ⟨n, size⟩ := Int.eq_ofNat_of_zero_le labelled.weighable.natural
  obtain ⟨label, q, rest⟩ := labelled.semidefinite_iff gain size
  exact ⟨label, n, q, size, rest⟩

/-! ### An indefinite weight -/

/-- The exact numbers, with the largest double as the bound that excludes nothing. -/
instance : BoundScalar ℚ where
  unboundedAbove := 2 ^ 1024 - 2 ^ 971
  unboundedBelow := -(2 ^ 1024 - 2 ^ 971)
  larger := max
  smaller := min
  restricts h := decide (h < 2 ^ 1024 - 2 ^ 971)

/-- A task that asks for two variables to be one. -/
def pairTask : LeafTask ℚ :=
  ⟨⟨"pair", 2, .matrix ⟨2, 2, [1, 0, 0, 1], rfl⟩, .vector [1, 1], .scalar 1, none, some .unknown,
    []⟩, .explicit, none⟩

def declarePair : TaskCall ℚ := .declare pairTask ⟨1, rfl⟩

def mergePair : TaskCall ℚ := .merge [.leaf 0] 2

/-- The weights one and minus one. -/
def flipPair : TaskCall ℚ := .setWeight (.merged 0 [.leaf 0]) (.list [.number 1, .number (-1)])

/-- The aggregate of the task takes the weights one and minus one. Its label stays
that of a semidefinite Hessian, which its Hessian is not. -/
theorem flippedPair_mislabelled : ∃ s : Store ℚ, Labelling s {0} ∧
    (s.mergedTasks.read 0).body.hessian = some .semidefinite ∧
    ∃ f : Quadratic ℚ 2, (s.mergedTasks.read 0).body.objective = .ok (.of f) ∧
      ¬Semidefinite f.1 := by
  obtain ⟨s, declared⟩ : ∃ s, declarePair.perform.exec .empty = (.ok (some (.leaf 0)), s) :=
    ⟨_, rfl⟩
  obtain ⟨t, merged⟩ : ∃ t, mergePair.perform.exec s = (.ok (some (.merged 0 [.leaf 0])), t) := by
    cases declared
    exact ⟨_, by with_unfolding_all rfl⟩
  obtain ⟨u, flipped⟩ : ∃ u, flipPair.perform.exec t = (.ok none, u) := by
    cases declared
    cases merged
    exact ⟨_, by with_unfolding_all rfl⟩
  have built : Labelling t {0} := by
    have none : labelledBy ∅ (.ok (some (.leaf 0))) = ∅ := rfl
    have run := (Labelling.start.call declared).call merged
    rwa [none, labelledBy, insert_empty_eq] at run
  have run : Labelling u {0} := built.call flipped
  obtain ⟨label, -⟩ := run.truthful (Set.mem_singleton 0)
  refine ⟨u, run, label, (!![1, 0; 0, -1], ![-1, 1]), ?_, fun semidefinite => ?_⟩
  · cases declared
    cases merged
    cases flipped
    with_unfolding_all rfl
  · exact absurd (semidefinite ![0, 1]) (by decide +kernel)

end ControlHierarchy
