import ControlHierarchy.Proofs.Update.Building
import ControlHierarchy.Proofs.Update.Pass
import ControlHierarchy.Session.Report
import Mathlib.Data.Set.Card

/-!
# How often a pass comes to a leaf

An update goes down every edge of a hierarchy: from a stack to its levels and
its bounds, from a merged task to its parts and to what is attached to itself,
from a leaf task to what is attached to it, and from a merged constraint to its
parts (`Store.children`). Leaves that hang in several places are refreshed
several times, once for each way that leads down to them
(`Build.refreshes_eq_paths`). What a merged task lists on behalf of its parts is
no edge of its own. A bound that could not be merged stays listed by the stack, but no
edge leads to it: the bounds are read off the aggregate that the stack keeps
(`Store.mergedBounds`), and that is what an update of the stack goes through.

Leaves may be of any kind whose update is a function of the state.
-/

namespace ControlHierarchy

/-- A leaf, named by its cell. -/
inductive Leaf where
  | constraint (id : Nat)
  | task (id : Nat)
  deriving DecidableEq

def Leaf.object : Leaf → Object
  | constraint i => .constraint (.leaf i)
  | task i => .task (.leaf i)

def Object.leaf? : Object → Option Leaf
  | .constraint (.leaf i) => some (.constraint i)
  | .task (.leaf i) => some (.task i)
  | _ => none

theorem Object.leaf?_eq_some {o : Object} {leaf : Leaf} :
    o.leaf? = some leaf ↔ o = leaf.object := by
  constructor
  · intro h
    unfold Object.leaf? at h
    split at h
    · cases h
      rfl
    · cases h
      rfl
    · cases h
  · rintro rfl
    cases leaf <;> rfl

/-- The leaf that a step refreshes. -/
def UpdateStep.leaf? : UpdateStep → Option Leaf
  | .refreshConstraint i => some (.constraint i)
  | .refreshTask i => some (.task i)
  | _ => none

/-- The leaves that a schedule refreshes, each as often as it does. -/
def leaves (steps : List UpdateStep) : List Leaf := steps.filterMap UpdateStep.leaf?

@[simp] theorem leaves_append (steps rest : List UpdateStep) :
    leaves (steps ++ rest) = leaves steps ++ leaves rest :=
  List.filterMap_append

namespace Store

variable {α : Type}

/-- The items of a list that can be gone through. -/
def present {β : Type} (items : Except Error (List β)) : List β := items.toOption.getD []

/-- What the aggregate of the bounds of a stack merges. A bound that could not be
merged is listed by the stack, but is none of them. -/
def mergedBounds (s : Store α) (id : Nat) : List Object :=
  (s.stackCells.read id).merged.toList.flatMap fun
    | .leaf i => [.constraint (.leaf i)]
    | .merged i parts => (present (s.constraintParts (.merged i parts))).map Object.constraint

/-- The ends of the edges that lead down from an object, in order. -/
def children (s : Store α) : Object → List Object
  | .constraint c => (present (s.constraintParts c)).map Object.constraint
  | .task (.leaf i) => present (s.attached (.leaf i))
  | .task (.merged i parts) => (present (s.taskParts (.merged i parts))).map Object.task ++
      present (s.ownConstraints (.merged i parts))
  | .stack id => present (s.levels id) ++ s.mergedBounds id
  | _ => []

/-- The way down from an object that takes the edges of the given numbers ends at
a goal. -/
def LeadsTo (s : Store α) (goal : Object) : Object → List Nat → Prop
  | o, [] => o = goal
  | o, k :: rest => ∃ p ∈ (s.children o)[k]?, s.LeadsTo goal p rest

/-- The paths from an object down to a goal. -/
def paths (s : Store α) (goal o : Object) : Set (List Nat) := {path | s.LeadsTo goal o path}

end Store

/-! ### Counting paths -/

theorem modifyHead_succ_inj {path path' : List Nat}
    (h : path.modifyHead (· + 1) = path'.modifyHead (· + 1)) : path = path' := by
  cases path with
  | nil =>
    cases path' with
    | nil => rfl
    | cons k rest => cases h
  | cons k rest =>
    cases path' with
    | nil => cases h
    | cons l rest' =>
      obtain ⟨head, tail⟩ := List.cons.inj h
      rw [Nat.succ.inj head, tail]

/-- There are as many ways that start with one of several edges as there are
behind all of them together. -/
theorem encard_branches {β : Type} (items : List β) (ways : β → Set (List Nat)) :
    {path | ∃ k rest, path = k :: rest ∧ ∃ b ∈ items[k]?, rest ∈ ways b}.encard =
      (items.map fun b => (ways b).encard).sum := by
  induction items with
  | nil => simp
  | cons b items ih =>
    have split : {path | ∃ k rest, path = k :: rest ∧ ∃ c ∈ (b :: items)[k]?, rest ∈ ways c} =
        List.cons 0 '' ways b ∪ List.modifyHead (· + 1) ''
          {path | ∃ k rest, path = k :: rest ∧ ∃ c ∈ items[k]?, rest ∈ ways c} := by
      ext path
      constructor
      · rintro ⟨_ | k, rest, rfl, c, hc, inside⟩
        · cases hc
          exact .inl ⟨rest, inside, rfl⟩
        · exact .inr ⟨k :: rest, ⟨k, rest, rfl, c, hc, inside⟩, rfl⟩
      · rintro (⟨rest, inside, rfl⟩ | ⟨_, ⟨k, rest, rfl, c, hc, inside⟩, rfl⟩)
        · exact ⟨0, rest, rfl, b, rfl, inside⟩
        · exact ⟨k + 1, rest, rfl, c, hc, inside⟩
    have apart : Disjoint (List.cons 0 '' ways b) (List.modifyHead (· + 1) ''
        {path | ∃ k rest, path = k :: rest ∧ ∃ c ∈ items[k]?, rest ∈ ways c}) := by
      rw [Set.disjoint_left]
      rintro _ ⟨rest, -, rfl⟩ ⟨_, ⟨k, rest', rfl, -⟩, same⟩
      cases same
    rw [split, Set.encard_union_eq apart, List.cons_injective.encard_image,
      Function.Injective.encard_image fun _ _ => modifyHead_succ_inj, ih, List.map_cons,
      List.sum_cons]

namespace Store

variable {α : Type} {s t : Store α} {leaf : Leaf} {steps rest : List UpdateStep}
  {os more : List Object}

/-- A path to a leaf ends where it starts, or goes on along an edge. -/
theorem encard_paths (s : Store α) (leaf : Leaf) (o : Object) :
    (s.paths leaf.object o).encard = (o.leaf?.toList.count leaf : ℕ∞) +
      ((s.children o).map fun p => (s.paths leaf.object p).encard).sum := by
  have split : s.paths leaf.object o = {path | path = [] ∧ o.leaf? = some leaf} ∪
      {path | ∃ k rest, path = k :: rest ∧
        ∃ p ∈ (s.children o)[k]?, rest ∈ s.paths leaf.object p} := by
    ext path
    cases path with
    | nil => simp [paths, LeadsTo, Object.leaf?_eq_some]
    | cons k rest => simp [paths, LeadsTo]
  have apart : Disjoint {path | path = [] ∧ o.leaf? = some leaf}
      {path | ∃ k rest, path = k :: rest ∧
        ∃ p ∈ (s.children o)[k]?, rest ∈ s.paths leaf.object p} := by
    rw [Set.disjoint_left]
    rintro _ ⟨rfl, -⟩ ⟨k, rest, same, -⟩
    cases same
  rw [split, Set.encard_union_eq apart, encard_branches]
  congr 1
  by_cases here : o.leaf? = some leaf
  · simp [here]
  · have none : o.leaf?.toList.count leaf = 0 :=
      List.count_eq_zero.2 fun member => here (Option.mem_toList.1 member)
    simp [here, none]

/-- A schedule that refuses nothing refreshes a leaf once for each path to it
from one of some objects. -/
def Follows (s : Store α) (leaf : Leaf) (steps : List UpdateStep) (os : List Object) : Prop :=
  (∀ e, .refuse e ∉ steps) →
    ((leaves steps).count leaf : ℕ∞) = (os.map fun o => (s.paths leaf.object o).encard).sum

namespace Follows

theorem nil : s.Follows leaf [] [] := fun _ => rfl

theorem refuse (e : Error) (os : List Object) : s.Follows leaf [.refuse e] os :=
  fun accepted => absurd (List.mem_singleton.2 rfl) (accepted e)

theorem append (first : s.Follows leaf steps os) (second : s.Follows leaf rest more) :
    s.Follows leaf (steps ++ rest) (os ++ more) := by
  intro accepted
  have before := first fun e member => accepted e (List.mem_append_left _ member)
  have after := second fun e member => accepted e (List.mem_append_right _ member)
  rw [leaves_append, List.count_append, Nat.cast_add, before, after, List.map_append,
    List.sum_append]

theorem flatMap {β : Type} {object : β → Object} {visit : β → List UpdateStep} {items : List β}
    (each : ∀ b ∈ items, s.Follows leaf (visit b) [object b]) :
    s.Follows leaf (items.flatMap visit) (items.map object) := by
  induction items with
  | nil => exact nil
  | cons b items ih =>
    rw [List.forall_mem_cons] at each
    exact each.1.append (ih each.2)

theorem append_quiet (h : s.Follows leaf steps os) (quiet : leaves rest = []) :
    s.Follows leaf (steps ++ rest) os := by
  intro accepted
  rw [leaves_append, quiet, List.append_nil]
  exact h fun e member => accepted e (List.mem_append_left _ member)

/-- Whatever takes the place of the parts of an aggregate, the schedule visits
those that there are. -/
theorem parts {β : Type} {object : β → Object} {visit : β → List UpdateStep} {parts : List β}
    (owner : Object) (kept : Backing) (each : ∀ p ∈ parts, s.Follows leaf (visit p) [object p]) :
    s.Follows leaf (stepsOfParts (s.asked owner kept parts) (parts.flatMap visit))
      ((present (s.asked owner kept parts)).map object) := by
  unfold asked
  split
  · rw [stepsOfParts_flatMap]
    exact flatMap each
  · exact refuse _ _
  · exact nil
  · exact refuse _ _

theorem listed {visit : Object → List UpdateStep} {items : Except Error (List Object)}
    (each : ∀ o, s.Follows leaf (visit o) [o]) :
    s.Follows leaf (stepsOfListed visit items) (present items) := by
  cases items with
  | error e => exact refuse e _
  | ok os =>
    have all : s.Follows leaf (os.flatMap visit) (os.map id) := flatMap fun o _ => each o
    rwa [List.map_id] at all

/-- A schedule for what is below an object, with a step in front that refreshes
the object itself where it is a leaf. -/
theorem of_children {o : Object} {own : List UpdateStep} (itself : leaves own = o.leaf?.toList)
    (below : s.Follows leaf steps (s.children o)) : s.Follows leaf (own ++ steps) [o] := by
  intro accepted
  have counted := below fun e member => accepted e (List.mem_append_right _ member)
  rw [leaves_append, List.count_append, Nat.cast_add, counted, itself, List.map_singleton,
    List.sum_singleton, encard_paths]

/-- To follow an aggregate is to follow what is below it. -/
theorem children {o : Object} (inner : o.leaf? = none) (h : s.Follows leaf steps [o]) :
    s.Follows leaf steps (s.children o) := by
  intro accepted
  rw [h accepted, List.map_singleton, List.sum_singleton, encard_paths, inner]
  simp

end Follows

/-! ### The schedules of all objects -/

theorem leaves_permit (s : Store α) (owner : Object) (operations : List Operation) :
    leaves (s.permit owner operations) = [] := by
  unfold permit
  split <;> rfl

theorem follows_constraint (s : Store α) (leaf : Leaf) (c : ConstraintRef) :
    s.Follows leaf (c.schedule s) [.constraint c] := by
  induction c using ConstraintRef.inductionOn with
  | leaf i =>
    rw [ConstraintRef.schedule, ← List.append_nil (_ ++ _)]
    refine Follows.of_children ?_ .nil
    rw [leaves_append, leaves_permit]
    rfl
  | merged i parts ih =>
    rw [ConstraintRef.schedule, ConstraintRef.scheduleAll_eq_flatMap, List.append_assoc,
      List.append_assoc]
    refine Follows.of_children (leaves_permit ..) ((Follows.parts _ _ ih).append_quiet ?_)
    rw [leaves_append, leaves_permit]
    rfl

theorem follows_task {visit : Object → List UpdateStep} (each : ∀ o, s.Follows leaf (visit o) [o])
    (t : TaskRef) : s.Follows leaf (t.schedule s visit) [.task t] := by
  induction t using TaskRef.inductionOn with
  | leaf i =>
    rw [TaskRef.schedule]
    refine Follows.of_children ?_ (.listed each)
    rw [leaves_append, leaves_permit]
    rfl
  | merged i parts ih =>
    rw [TaskRef.schedule, TaskRef.scheduleAll_eq_flatMap, List.append_assoc, List.append_assoc,
      List.append_assoc]
    refine Follows.of_children (leaves_permit ..) ((Follows.parts _ _ ih).append
      ((Follows.listed each).append_quiet ?_))
    rw [leaves_append, leaves_permit]
    rfl

theorem follows_bounds (s : Store α) (leaf : Leaf) (id : Nat) :
    s.Follows leaf (s.scheduleBounds id) (s.mergedBounds id) := by
  unfold scheduleBounds mergedBounds
  split
  · exact Follows.refuse _ _
  · cases (s.stackCells.read id).merged with
    | none => exact Follows.nil
    | some c =>
      have whole := follows_constraint s leaf c
      rw [Option.toList_some, ConstraintRef.scheduleAll_eq_flatMap, List.flatMap_singleton,
        List.flatMap_singleton]
      cases c with
      | leaf i => exact whole
      | merged i parts => exact whole.children rfl

theorem follows_stack {visit : Object → List UpdateStep}
    (each : ∀ o, s.Follows leaf (visit o) [o]) (id : Nat) :
    s.Follows leaf (s.scheduleStack visit id) [.stack id] := by
  rw [scheduleStack, List.append_assoc]
  exact Follows.of_children (leaves_permit ..)
    ((Follows.listed each).append (follows_bounds s leaf id))

/-- The schedule of any object follows the paths down from it, as deep as the walk goes. -/
theorem follows_schedule (s : Store α) (leaf : Leaf) (depth : Nat) (o : Object) :
    s.Follows leaf (Object.schedule s depth o) [o] := by
  induction depth generalizing o with
  | zero =>
    cases o with
    | constraint c => exact follows_constraint s leaf c
    | _ => exact Follows.refuse _ _
  | succ depth ih =>
    cases o with
    | constraint c => exact follows_constraint s leaf c
    | task t => exact follows_task ih t
    | stack id => exact follows_stack ih id
    | _ => exact Follows.refuse _ _

/-! ### Passes -/

/-- How often a leaf was refreshed so far, if it counts. -/
def leafUpdates (s : Store α) : Leaf → Option Nat
  | .constraint i => s.constraintUpdates (.leaf i)
  | .task i => s.taskUpdates (.leaf i)

theorem leafUpdates_congr (constraints : t.leafConstraints = s.leafConstraints)
    (tasks : t.leafTasks = s.leafTasks) (leaf : Leaf) :
    t.leafUpdates leaf = s.leafUpdates leaf := by
  cases leaf with
  | constraint i => rw [leafUpdates, leafUpdates, constraintUpdates, constraintUpdates, constraints]
  | task i => rw [leafUpdates, leafUpdates, taskUpdates, taskUpdates, tasks]

/-- A refreshed constraint has counted one refresh more, and nothing else has. -/
theorem leafUpdates_writeLeafConstraint [Zero α] [Add α] [Sub α] {state : ArrayData α} {i : Nat}
    {c : LeafConstraint α} (refreshed : (s.leafConstraints.read i).refresh state = .ok c)
    (leaf : Leaf) :
    leafUpdates { s with leafConstraints := s.leafConstraints.write i c } leaf =
      (s.leafUpdates leaf).map (· + [Leaf.constraint i].count leaf) := by
  cases leaf with
  | task j => simp [leafUpdates, taskUpdates]
  | constraint j =>
    simp only [leafUpdates, constraintUpdates, Cells.read_write]
    by_cases here : j = i
    · subst here
      unfold LeafConstraint.refresh at refreshed
      split at refreshed
      · next rule =>
        cases refreshed
        simp [rule]
      · next rule =>
        cases refreshed
        simp [rule]
      · next rule =>
        obtain ⟨x, -, refreshed⟩ := bind_eq_ok.1 refreshed
        obtain ⟨range, -, refreshed⟩ := bind_eq_ok.1 refreshed
        cases refreshed
        simp [rule]
      · next rule =>
        obtain ⟨x, -, refreshed⟩ := bind_eq_ok.1 refreshed
        obtain ⟨range, -, refreshed⟩ := bind_eq_ok.1 refreshed
        cases refreshed
        simp [rule]
      · next rule =>
        obtain ⟨x, -, refreshed⟩ := bind_eq_ok.1 refreshed
        obtain ⟨stored, -, refreshed⟩ := bind_eq_ok.1 refreshed
        cases refreshed
        simp [LeafConstraint.store, rule]
    · have other : ¬i = j := fun same => here same.symm
      simp [here, other]

/-- A refreshed task has counted one refresh more, and nothing else has. -/
theorem leafUpdates_writeLeafTask [Zero α] [Neg α] {state : ArrayData α} {i : Nat} {v : LeafTask α}
    (refreshed : (s.leafTasks.read i).refresh state = .ok v) (leaf : Leaf) :
    leafUpdates { s with leafTasks := s.leafTasks.write i v } leaf =
      (s.leafUpdates leaf).map (· + [Leaf.task i].count leaf) := by
  cases leaf with
  | constraint j => simp [leafUpdates, constraintUpdates]
  | task j =>
    simp only [leafUpdates, taskUpdates, Cells.read_write]
    by_cases here : j = i
    · subst here
      unfold LeafTask.refresh at refreshed
      split at refreshed
      · next rule =>
        cases refreshed
        simp [rule]
      · next rule =>
        obtain ⟨x, -, refreshed⟩ := bind_eq_ok.1 refreshed
        cases refreshed
        simp [rule]
      · next rule =>
        obtain ⟨x, -, refreshed⟩ := bind_eq_ok.1 refreshed
        obtain ⟨diagonal, -, refreshed⟩ := bind_eq_ok.1 refreshed
        cases refreshed
        simp [rule]
      · next rule =>
        obtain ⟨x, -, refreshed⟩ := bind_eq_ok.1 refreshed
        obtain ⟨stored, -, refreshed⟩ := bind_eq_ok.1 refreshed
        cases refreshed
        simp [rule]
    · have other : ¬i = j := fun same => here same.symm
      simp [here, other]

end Store

namespace Build

variable {α : Type} {s t : Store α} {state : ArrayData α} {steps : List UpdateStep} {o : Object}

theorem exec_mergeConstraint_leaves [Zero α] [Neg α] [BoundScalar α] {i : Nat}
    {parts : List ConstraintRef} (run : (mergeConstraint i parts).exec s = (.ok (), t)) :
    t.leafConstraints = s.leafConstraints ∧ t.leafTasks = s.leafTasks := by
  unfold mergeConstraint at run
  rw [exec_bind_ok exec_get, exec_lift_bind_eq_ok] at run
  obtain ⟨_, -, run⟩ := run
  obtain ⟨_, -, run⟩ := exec_lift_bind_eq_ok.1 run
  obtain ⟨_, -, run⟩ := exec_lift_bind_eq_ok.1 run
  cases run
  exact ⟨rfl, rfl⟩

theorem exec_mergeTask_leaves [Zero α] [One α] [Add α] [Mul α] {i : Nat} {parts : List TaskRef}
    (run : (mergeTask i parts).exec s = (.ok (), t)) :
    t.leafConstraints = s.leafConstraints ∧ t.leafTasks = s.leafTasks := by
  unfold mergeTask at run
  rw [exec_bind_ok exec_get, exec_lift_bind_eq_ok] at run
  obtain ⟨_, -, run⟩ := run
  obtain ⟨_, -, run⟩ := exec_lift_bind_eq_ok.1 run
  obtain ⟨_, -, run⟩ := exec_lift_bind_eq_ok.1 run
  cases run
  unfold Store.retire
  split
  · exact ⟨rfl, rfl⟩
  · exact ⟨rfl, rfl⟩

/-- A merge of the bounds of a stack leaves it with an aggregate of all that it lists. -/
theorem exec_mergeBounds [Zero α] [Neg α] [BoundScalar α] {id : Nat}
    (run : (mergeBounds id).exec s = (.ok (), t)) :
    ∃ i parts, (t.stackCells.read id).merged = some (.merged i parts) ∧
      (t.stackCells.read id).bounds = parts.map Object.constraint := by
  obtain ⟨parts, d, u, listed, made, rfl⟩ := mergeBounds_eq_ok.1 run
  obtain ⟨events, rfl⟩ := (onlyLogs_mergedConstraint _ _ _).of_exec made
  refine ⟨s.mergedConstraints.next, parts, ?_, ?_⟩
  · exact congrArg Stack.merged (Cells.read_write_self _ _ _)
  · exact (congrArg Stack.bounds (Cells.read_write_self _ _ _)).trans listed

/-- Once a bound was added, all bounds that a stack lists are merged. -/
theorem mergedBounds_of_addBound [Zero α] [Neg α] [BoundScalar α] {members : Set Object}
    {id : Nat} (h : s.Sound members) (stack : .stack id ∈ members) (bound : o ∈ members)
    (run : (addBound id o).exec s = (.ok (), t)) :
    t.mergedBounds id = (t.stackCells.read id).bounds := by
  obtain ⟨_, sound⟩ := sound_addBound h stack bound run
  obtain ⟨_, u, -, merges⟩ := exec_bind_eq_ok.1 run
  obtain ⟨i, parts, merged, listed⟩ := exec_mergeBounds merges
  have asked : t.constraintParts (.merged i parts) = .ok parts :=
    Store.asked_eq_ok _ (sound.intact _ _ (by simp))
  rw [Store.mergedBounds, merged, Option.toList_some, List.flatMap_singleton, listed]
  exact congrArg (fun items => (Store.present items).map Object.constraint) asked

variable [Zero α] [One α] [Add α] [Sub α] [Mul α] [Neg α] [BoundScalar α]

/-- The steps that a pass comes to: all up to the first one that fails. -/
def begun (state : ArrayData α) : List UpdateStep → Store α → List UpdateStep
  | [], _ => []
  | step :: rest, s =>
    match (perform state step).exec s with
    | (.ok _, t) => step :: begun state rest t
    | (.error _, _) => [step]

/-- How often an update of an object refreshes a leaf. -/
def refreshes (state : ArrayData α) (o : Object) (s : Store α) (leaf : Leaf) : Nat :=
  (leaves (begun state (o.schedule s s.depth) s)).count leaf

/-- A pass that succeeds comes to the whole schedule. -/
theorem begun_of_performAll (run : (performAll state steps).exec s = (.ok (), t)) :
    begun state steps s = steps := by
  induction steps generalizing s with
  | nil => rfl
  | cons step steps ih =>
    obtain ⟨_, u, performed, rest⟩ := exec_bind_eq_ok.1 run
    rw [begun, performed]
    exact congrArg (step :: ·) (ih rest)

/-- A step counts one refresh at the leaf that it refreshes, and none elsewhere. -/
theorem leafUpdates_perform {step : UpdateStep} (run : (perform state step).exec s = (.ok (), t))
    (leaf : Leaf) :
    t.leafUpdates leaf = (s.leafUpdates leaf).map (· + (leaves [step]).count leaf) := by
  cases step with
  | refreshConstraint i =>
    obtain ⟨c, refreshed, rfl⟩ := exec_refreshConstraint_eq_ok.1 run
    exact Store.leafUpdates_writeLeafConstraint refreshed leaf
  | mergeConstraint i parts =>
    obtain ⟨constraints, tasks⟩ := exec_mergeConstraint_leaves run
    have quiet : leaves [.mergeConstraint i parts] = [] := rfl
    simp [Store.leafUpdates_congr constraints tasks, quiet]
  | refreshTask i =>
    obtain ⟨v, refreshed, rfl⟩ := exec_refreshTask_eq_ok.1 run
    exact Store.leafUpdates_writeLeafTask refreshed leaf
  | mergeTask i parts =>
    obtain ⟨constraints, tasks⟩ := exec_mergeTask_leaves run
    have quiet : leaves [.mergeTask i parts] = [] := rfl
    simp [Store.leafUpdates_congr constraints tasks, quiet]
  | refuse e => cases run

/-- A pass counts the refreshes of its schedule. -/
theorem leafUpdates_performAll (run : (performAll state steps).exec s = (.ok (), t)) (leaf : Leaf) :
    t.leafUpdates leaf = (s.leafUpdates leaf).map (· + (leaves steps).count leaf) := by
  induction steps generalizing s with
  | nil =>
    cases run
    simp [leaves]
  | cons step steps ih =>
    obtain ⟨_, u, performed, rest⟩ := exec_bind_eq_ok.1 run
    have split : leaves (step :: steps) = leaves [step] ++ leaves steps :=
      leaves_append [step] steps
    rw [ih rest, leafUpdates_perform performed, Option.map_map, split]
    congr 1
    funext k
    simp [Nat.add_assoc]

/-- An update that succeeds refreshes a leaf once for each path from the object
down to the leaf, and a leaf that counts its refreshes has counted as many more. The
edges to the bounds of a stack are those to its merged ones, also after a bound was
refused. -/
theorem refreshes_eq_paths (run : (update state o).exec s = (.ok (), t)) (leaf : Leaf) :
    (refreshes state o s leaf : ℕ∞) = (s.paths leaf.object o).encard ∧
      ∀ k, s.leafUpdates leaf = some k →
        t.leafUpdates leaf = some (k + refreshes state o s leaf) := by
  rw [exec_update] at run
  have accepted := not_refuse_of_performAll run
  rw [refreshes, begun_of_performAll run]
  constructor
  · rw [s.follows_schedule leaf s.depth o accepted, List.map_singleton, List.sum_singleton]
  · intro k counted
    rw [leafUpdates_performAll run, counted, Option.map_some]

end Build

/-- The corridor of the shared stack hangs in six places: below the merged task
twice by its part and once by the merge attached to it, below the second level,
in the merge that is a bound, and as a bound. -/
theorem sharedLevels_refreshes : ∃ t,
    (Build.update (.shaped (.vector [1, 2])) (.stack 0)).exec sharedLevels = (.ok (), t) ∧
      (sharedLevels.paths (Leaf.constraint 0).object (.stack 0)).encard = 6 ∧
      t.leafUpdates (.constraint 0) = some 6 := by
  obtain ⟨t, run⟩ := sharedLevels_update
  obtain ⟨paths, counted⟩ := Build.refreshes_eq_paths run (.constraint 0)
  have six :
      Build.refreshes (.shaped (.vector [1, 2])) (.stack 0) sharedLevels (.constraint 0) = 6 := by
    decide +kernel
  rw [six] at paths counted
  exact ⟨t, run, paths.symm, counted 0 rfl⟩

end ControlHierarchy
