import ControlHierarchy.Proofs.Store.Assembling
import ControlHierarchy.Store.Schedule

/-!
# The order of an update pass

A schedule brings objects up to date one after another. In the schedule of a
stack the parts of an aggregate come before the aggregate (`PartsFirst`), and
whatever is attached to a task that is brought up to date is brought up to date
as well, as are the levels of the stack and the aggregate of its bounds
(`Store.covers_scheduleStack`). This is so for hierarchies: collections of
objects in which references to the same cell are equal, and in which no array
took the place of a list (`Store.Hierarchy`).

An update that is asked for is the pass over the schedule of the object, and a merge
that is asked for is a short pass, too (`Build.exec_update`, `Build.exec_regenerate`).
-/

namespace ControlHierarchy

/-- A property of constraints that aggregates inherit from their parts holds of all. -/
@[elab_as_elim]
theorem ConstraintRef.inductionOn {motive : ConstraintRef → Prop} (c : ConstraintRef)
    (leaf : ∀ i, motive (.leaf i))
    (merged : ∀ i parts, (∀ p ∈ parts, motive p) → motive (.merged i parts)) : motive c :=
  match c with
  | .leaf i => leaf i
  | .merged i parts => merged i parts fun p _ => p.inductionOn leaf merged

/-- A property of tasks that aggregates inherit from their parts holds of all. -/
@[elab_as_elim]
theorem TaskRef.inductionOn {motive : TaskRef → Prop} (t : TaskRef)
    (leaf : ∀ i, motive (.leaf i))
    (merged : ∀ i parts, (∀ p ∈ parts, motive p) → motive (.merged i parts)) : motive t :=
  match t with
  | .leaf i => leaf i
  | .merged i parts => merged i parts fun p _ => p.inductionOn leaf merged

namespace Object

/-- The parts of an aggregate. -/
def parts : Object → List Object
  | .constraint (.merged _ parts) => parts.map .constraint
  | .task (.merged _ parts) => parts.map .task
  | _ => []

def isAggregate : Object → Bool
  | .constraint (.merged ..) | .task (.merged ..) => true
  | _ => false

/-- No aggregate is a part of itself. -/
theorem not_mem_parts_self (o : Object) : o ∉ o.parts := by
  intro h
  cases o with
  | constraint c =>
    cases c with
    | leaf i => cases h
    | merged i parts =>
      obtain ⟨p, hp, same⟩ := List.mem_map.1 h
      cases Object.constraint.inj same
      have smaller := List.sizeOf_lt_of_mem hp
      rw [ConstraintRef.merged.sizeOf_spec] at smaller
      omega
  | task t =>
    cases t with
    | leaf i => cases h
    | merged i parts =>
      obtain ⟨p, hp, same⟩ := List.mem_map.1 h
      cases Object.task.inj same
      have smaller := List.sizeOf_lt_of_mem hp
      rw [TaskRef.merged.sizeOf_spec] at smaller
      omega
  | _ => cases h

theorem ne_stack_of_mem_parts {o p : Object} (h : p ∈ o.parts) (id : Nat) : p ≠ .stack id := by
  rintro rfl
  unfold parts at h
  split at h
  · simp at h
  · simp at h
  · cases h

end Object

/-! ### Schedules -/

/-- What a step brings up to date. -/
def UpdateStep.subject? : UpdateStep → Option Object
  | .refreshConstraint i => some (.constraint (.leaf i))
  | .mergeConstraint i parts => some (.constraint (.merged i parts))
  | .refreshTask i => some (.task (.leaf i))
  | .mergeTask i parts => some (.task (.merged i parts))
  | .refuse _ => none

/-- What a schedule brings up to date. -/
def subjects (steps : List UpdateStep) : List Object := steps.filterMap UpdateStep.subject?

@[simp] theorem subjects_append (steps rest : List UpdateStep) :
    subjects (steps ++ rest) = subjects steps ++ subjects rest :=
  List.filterMap_append

@[simp] theorem subjects_singleton (step : UpdateStep) :
    subjects [step] = step.subject?.toList := by
  cases h : step.subject? <;> simp [subjects, h]

@[simp] theorem subjects_flatMap {β : Type} (items : List β) (visit : β → List UpdateStep) :
    subjects (items.flatMap visit) = items.flatMap fun b => subjects (visit b) :=
  List.filterMap_flatMap

/-- A stack has no step of its own. -/
theorem stack_not_mem_subjects (id : Nat) (steps : List UpdateStep) :
    .stack id ∉ subjects steps := by
  intro h
  obtain ⟨step, -, subject⟩ := List.mem_filterMap.1 h
  cases step <;> cases subject

/-- Every step comes after those of the parts of what it brings up to date. -/
inductive PartsFirst : List UpdateStep → Prop
  | nil : PartsFirst []
  | snoc {steps : List UpdateStep} {step : UpdateStep} (before : PartsFirst steps)
      (parts : ∀ o ∈ step.subject?, ∀ p ∈ o.parts, p ∈ subjects steps) :
      PartsFirst (steps ++ [step])

namespace PartsFirst

variable {steps rest : List UpdateStep}

theorem append (first : PartsFirst steps) (second : PartsFirst rest) :
    PartsFirst (steps ++ rest) := by
  induction second with
  | nil => rwa [List.append_nil]
  | snoc before parts ih =>
    rw [← List.append_assoc]
    refine ih.snoc fun o ho p hp => ?_
    rw [subjects_append]
    exact List.mem_append_right _ (parts o ho p hp)

theorem parts_mem (order : PartsFirst steps) {o p : Object} (ho : o ∈ subjects steps)
    (hp : p ∈ o.parts) : p ∈ subjects steps := by
  induction order with
  | nil => cases ho
  | snoc before parts ih =>
    rw [subjects_append, subjects_singleton] at *
    rcases List.mem_append.1 ho with earlier | last
    · exact List.mem_append_left _ (ih earlier)
    · exact List.mem_append_left _ (parts o (Option.mem_toList.1 last) p hp)

end PartsFirst

namespace Store

variable {α : Type}

/-- What is attached to an object itself, and for a stack its levels and the
aggregate of its bounds. -/
def attachedTo (s : Store α) : Object → List Object
  | .task (.leaf i) => (s.leafTasks.read i).body.constraints
  | .task (.merged i _) => (s.mergedTasks.read i).own
  | .stack id => (s.stackCells.read id).levels ++
      (s.stackCells.read id).merged.toList.map Object.constraint
  | _ => []

/-- No array took the place of a list that an object is gone through by. -/
def KeepsLists (s : Store α) (o : Object) : Prop :=
  ∀ field ∈ [.constraints, .backing .constraints, .backing .tasks, .backing .ownConstraints,
    .backing .levels, .backing .mergedBounds], s.arrayIn? o field = none

/-- What a stack lists as bounds are the parts of the aggregate that it keeps. This
fails of a stack to which a bound was added that could not be merged: the bound stays
listed, and the aggregate is the one from before. -/
def BoundsMerged (s : Store α) (id : Nat) : Prop :=
  ∀ o ∈ (s.stackCells.read id).bounds,
    ∃ c ∈ (s.stackCells.read id).merged, o ∈ (Object.constraint c).parts

/-- A collection of objects with all that is below them. Its stacks have tasks as
levels and no bounds but merged ones, constraints are attached to its tasks, and
no cell has two references. So a stack that has kept a bound from a failed addition is
in no hierarchy (`BoundsMerged`). -/
structure Hierarchy (s : Store α) (members : Set Object) : Prop where
  parts : ∀ o ∈ members, ∀ p ∈ o.parts, p ∈ members
  attached : ∀ o ∈ members, ∀ p ∈ s.attachedTo o, p ∈ members
  levels : ∀ id, .stack id ∈ members → ∀ o ∈ (s.stackCells.read id).levels, ∃ t, o = .task t
  bounds : ∀ id, .stack id ∈ members → s.BoundsMerged id
  constraints : ∀ t, .task t ∈ members → ∀ o ∈ s.attachedTo (.task t), ∃ c, o = .constraint c
  lists : ∀ o ∈ members, s.KeepsLists o
  same : ∀ a ∈ members, ∀ b ∈ members, a.same b → a = b

/-- A schedule for members of a hierarchy brings parts up to date before their
aggregates, and leaves out nothing that is attached. -/
structure Covers (s : Store α) (members : Set Object) (steps : List UpdateStep) : Prop where
  order : PartsFirst steps
  attached : ∀ o ∈ subjects steps, ∀ p ∈ s.attachedTo o, p ∈ subjects steps
  inside : ∀ o ∈ subjects steps, o ∈ members
  callable : (∀ e, .refuse e ∉ steps) → ∀ o ∈ subjects steps, o.isAggregate →
    s.checkCallable o .regenerate = .ok ()

variable {s : Store α} {members : Set Object} {steps rest : List UpdateStep} {o : Object}

namespace Covers

theorem nil : s.Covers members [] := ⟨.nil, by simp [subjects], by simp [subjects], by
  simp [subjects]⟩

theorem refuse (e : Error) : s.Covers members [.refuse e] :=
  ⟨.snoc .nil (by simp [UpdateStep.subject?]), by simp [subjects, UpdateStep.subject?],
    by simp [subjects, UpdateStep.subject?], by simp [subjects, UpdateStep.subject?]⟩

theorem permit (operations : List Operation) : s.Covers members (s.permit o operations) := by
  unfold Store.permit
  split
  · exact nil
  · exact refuse _

theorem append (first : s.Covers members steps) (second : s.Covers members rest) :
    s.Covers members (steps ++ rest) where
  order := first.order.append second.order
  attached o ho p hp := by
    rw [subjects_append, List.mem_append] at ho ⊢
    exact ho.imp (first.attached o · p hp) (second.attached o · p hp)
  inside o ho := by
    rw [subjects_append, List.mem_append] at ho
    exact ho.elim (first.inside o) (second.inside o)
  callable accepted o ho aggregate := by
    rw [subjects_append, List.mem_append] at ho
    exact ho.elim
      (first.callable (fun e he => accepted e (List.mem_append_left _ he)) o · aggregate)
      (second.callable (fun e he => accepted e (List.mem_append_right _ he)) o · aggregate)

theorem flatMap {β : Type} {visit : β → List UpdateStep} {items : List β}
    (each : ∀ b ∈ items, s.Covers members (visit b)) :
    s.Covers members (items.flatMap visit) := by
  induction items with
  | nil => exact nil
  | cons b items ih =>
    rw [List.forall_mem_cons] at each
    rw [List.flatMap_cons]
    exact each.1.append (ih each.2)

/-- A step between two schedules: the first one has the parts of what the step
brings up to date, and one of them has what is attached to it. -/
theorem around (first : s.Covers members steps) {step : UpdateStep}
    (second : s.Covers members rest) (subject : step.subject? = some o) (member : o ∈ members)
    (parts : ∀ p ∈ o.parts, p ∈ subjects steps)
    (attached : ∀ p ∈ s.attachedTo o, p ∈ subjects steps ∨ p ∈ subjects rest)
    (callable : (∀ e, .refuse e ∉ steps) → o.isAggregate →
      s.checkCallable o .regenerate = .ok ()) :
    s.Covers members (steps ++ [step] ++ rest) ∧ o ∈ subjects (steps ++ [step] ++ rest) := by
  have split : ∀ q, q ∈ subjects (steps ++ [step] ++ rest) ↔
      (q ∈ subjects steps ∨ q = o) ∨ q ∈ subjects rest := by
    intro q
    rw [subjects_append, subjects_append, subjects_singleton, subject, List.mem_append,
      List.mem_append, Option.toList_some, List.mem_singleton]
  refine ⟨⟨(first.order.snoc ?_).append second.order, fun q hq p hp => ?_, fun q hq => ?_,
    fun accepted q hq aggregate => ?_⟩, (split o).2 (.inl (.inr rfl))⟩
  · simpa [subject] using parts
  · rw [split] at hq ⊢
    rcases hq with (hq | rfl) | hq
    · exact .inl (.inl (first.attached q hq p hp))
    · exact (attached p hp).imp_left .inl
    · exact .inr (second.attached q hq p hp)
  · rcases (split q).1 hq with (hq | rfl) | hq
    · exact first.inside q hq
    · exact member
    · exact second.inside q hq
  · have before : ∀ e, .refuse e ∉ steps := fun e he =>
      accepted e (List.mem_append_left _ (List.mem_append_left _ he))
    rcases (split q).1 hq with (hq | rfl) | hq
    · exact first.callable before q hq aggregate
    · exact callable before aggregate
    · exact second.callable (fun e he => accepted e (List.mem_append_right _ he)) q hq aggregate

/-- A step after a schedule that has the parts of what it brings up to date, and
what is attached to it. -/
theorem snoc (first : s.Covers members steps) {step : UpdateStep}
    (subject : step.subject? = some o) (member : o ∈ members)
    (parts : ∀ p ∈ o.parts, p ∈ subjects steps)
    (attached : ∀ p ∈ s.attachedTo o, p ∈ subjects steps)
    (callable : (∀ e, .refuse e ∉ steps) → o.isAggregate →
      s.checkCallable o .regenerate = .ok ()) :
    s.Covers members (steps ++ [step]) ∧ o ∈ subjects (steps ++ [step]) := by
  have whole := first.around nil subject member parts (fun p hp => .inl (attached p hp)) callable
  rwa [List.append_nil] at whole

end Covers

/-! ### The schedules of a hierarchy -/

theorem permit_eq_nil {operation : Operation}
    (accepted : ∀ e, .refuse e ∉ s.permit o [operation]) :
    s.checkCallable o operation = .ok () := by
  unfold permit at accepted
  split at accepted
  · next passed => exact (then_eq_ok.1 passed).1
  · exact absurd (List.mem_singleton.2 rfl) (accepted _)

theorem stepsOfParts_flatMap {β : Type} (parts : List β) (visit : β → List UpdateStep) :
    stepsOfParts (.ok parts) (parts.flatMap visit) = parts.flatMap visit := by
  cases parts with
  | nil => rfl
  | cons p parts => rfl

variable (h : s.Hierarchy members)

include h

/-- The schedule of a constraint brings it up to date after its parts. -/
theorem Hierarchy.covers_constraint (c : ConstraintRef) (member : .constraint c ∈ members) :
    s.Covers members (c.schedule s) ∧ .constraint c ∈ subjects (c.schedule s) := by
  induction c using ConstraintRef.inductionOn with
  | leaf i =>
    rw [ConstraintRef.schedule]
    exact (Covers.permit _).snoc rfl member (List.forall_mem_nil _) (List.forall_mem_nil _)
      fun _ leaf => absurd leaf Bool.false_ne_true
  | merged i parts ih =>
    have listed : s.constraintParts (.merged i parts) = .ok parts :=
      asked_eq_ok _ (h.lists _ member _ (by simp))
    have below : ∀ p ∈ parts, s.Covers members (p.schedule s) ∧
        .constraint p ∈ subjects (p.schedule s) :=
      fun p hp => ih p hp (h.parts _ member _ (List.mem_map_of_mem hp))
    rw [ConstraintRef.schedule, listed, ConstraintRef.scheduleAll_eq_flatMap,
      stepsOfParts_flatMap]
    refine (((Covers.permit _).append (.flatMap fun p hp => (below p hp).1)).append
      (.permit _)).snoc rfl member (List.forall_mem_map.2 fun p hp => ?_)
      (List.forall_mem_nil _) fun accepted _ => ?_
    · simp only [subjects_append, subjects_flatMap, List.mem_append, List.mem_flatMap]
      exact .inl (.inr ⟨p, hp, (below p hp).2⟩)
    · exact permit_eq_nil fun e he => accepted e (List.mem_append_right _ he)

/-- Objects that are listed are covered when all of them are constraints. -/
theorem Hierarchy.covers_constraints {visit : Object → List UpdateStep}
    (visits : ∀ c, visit (.constraint c) = c.schedule s) {items : List Object}
    (constraints : ∀ o ∈ items, ∃ c, o = .constraint c) (inside : ∀ o ∈ items, o ∈ members) :
    s.Covers members (items.flatMap visit) ∧ ∀ o ∈ items, o ∈ subjects (items.flatMap visit) := by
  have each : ∀ o ∈ items, s.Covers members (visit o) ∧ o ∈ subjects (visit o) := by
    intro o ho
    obtain ⟨c, rfl⟩ := constraints o ho
    rw [visits]
    exact h.covers_constraint c (inside _ ho)
  refine ⟨.flatMap fun o ho => (each o ho).1, fun o ho => ?_⟩
  rw [subjects_flatMap]
  exact List.mem_flatMap.2 ⟨o, ho, (each o ho).2⟩

/-- The schedule of a task brings it up to date after its parts, and what is
attached to any of them as well. -/
theorem Hierarchy.covers_task {visit : Object → List UpdateStep}
    (visits : ∀ c, visit (.constraint c) = c.schedule s) (t : TaskRef)
    (member : .task t ∈ members) :
    s.Covers members (t.schedule s visit) ∧ .task t ∈ subjects (t.schedule s visit) := by
  induction t using TaskRef.inductionOn with
  | leaf i =>
    have listed : s.attached (.leaf i) = .ok (s.attachedTo (.task (.leaf i))) :=
      walk_eq_ok _ (h.lists _ member _ (by simp))
    obtain ⟨covered, visited⟩ :=
      h.covers_constraints visits (h.constraints _ member) (h.attached _ member)
    rw [TaskRef.schedule, listed]
    exact (Covers.permit _).around covered rfl member (List.forall_mem_nil _)
      (fun p hp => .inr (visited p hp)) fun _ leaf => absurd leaf Bool.false_ne_true
  | merged i parts ih =>
    have listed : s.taskParts (.merged i parts) = .ok parts :=
      asked_eq_ok _ (h.lists _ member _ (by simp))
    have own : s.ownConstraints (.merged i parts) =
        .ok (s.attachedTo (.task (.merged i parts))) :=
      walk_eq_ok _ (h.lists _ member _ (by simp))
    have below : ∀ p ∈ parts, s.Covers members (p.schedule s visit) ∧
        .task p ∈ subjects (p.schedule s visit) :=
      fun p hp => ih p hp (h.parts _ member _ (List.mem_map_of_mem hp))
    obtain ⟨covered, visited⟩ :=
      h.covers_constraints visits (h.constraints _ member) (h.attached _ member)
    rw [TaskRef.schedule, listed, own, TaskRef.scheduleAll_eq_flatMap, stepsOfParts_flatMap]
    refine ((((Covers.permit _).append (.flatMap fun p hp => (below p hp).1)).append
      covered).append (.permit _)).snoc rfl member (List.forall_mem_map.2 fun p hp => ?_)
      (fun p hp => ?_) fun accepted _ => ?_
    · simp only [subjects_append, subjects_flatMap, List.mem_append, List.mem_flatMap]
      exact .inl (.inl (.inr ⟨p, hp, (below p hp).2⟩))
    · simp only [subjects_append, List.mem_append]
      exact .inl (.inr (visited p hp))
    · exact permit_eq_nil fun e he => accepted e (List.mem_append_right _ he)

/-- The schedule of a stack brings its levels and the aggregate of its bounds up
to date, with all that is below them. -/
theorem Hierarchy.covers_stack (id : Nat) (member : .stack id ∈ members) :
    s.Covers members (Object.schedule s s.depth (.stack id)) ∧
      ∀ o ∈ s.attachedTo (.stack id), o ∈ subjects (Object.schedule s s.depth (.stack id)) := by
  obtain ⟨depth, deep⟩ := Nat.exists_eq_add_of_le' s.two_le_depth
  have levels : s.levels id = .ok (s.stackCells.read id).levels :=
    walk_eq_ok _ (h.lists _ member _ (by simp))
  have bounds : s.scheduleBounds id =
      (s.stackCells.read id).merged.toList.flatMap (ConstraintRef.schedule s) := by
    rw [scheduleBounds, h.lists _ member _ (by simp), ConstraintRef.scheduleAll_eq_flatMap]
  have eachLevel : ∀ o ∈ (s.stackCells.read id).levels,
      s.Covers members (Object.schedule s (depth + 1) o) ∧
        o ∈ subjects (Object.schedule s (depth + 1) o) := by
    intro o ho
    obtain ⟨t, rfl⟩ := h.levels id member o ho
    exact h.covers_task (Object.schedule_constraint s depth) t
      (h.attached _ member _ (List.mem_append_left _ ho))
  have eachBound : ∀ c ∈ (s.stackCells.read id).merged.toList,
      s.Covers members (c.schedule s) ∧ .constraint c ∈ subjects (c.schedule s) :=
    fun c hc => h.covers_constraint c
      (h.attached _ member _ (List.mem_append_right _ (List.mem_map_of_mem hc)))
  rw [deep, Object.schedule_stack, scheduleStack, levels, bounds]
  constructor
  · exact ((Covers.permit _).append (.flatMap fun o ho => (eachLevel o ho).1)).append
      (.flatMap fun c hc => (eachBound c hc).1)
  · intro o ho
    simp only [subjects_append, stepsOfListed, subjects_flatMap, List.mem_append, List.mem_flatMap]
    rcases List.mem_append.1 ho with level | bound
    · exact .inl (.inr ⟨o, level, (eachLevel o level).2⟩)
    · obtain ⟨c, hc, rfl⟩ := List.mem_map.1 bound
      exact .inr ⟨c, hc, (eachBound c hc).2⟩

end Store

/-! ### Calls -/

section Calls

variable {α : Type} {s : Store α}

/-- The merge of an aggregate. No other object can be merged. -/
def Object.mergeStep : Object → UpdateStep
  | .constraint (.merged i parts) => .mergeConstraint i parts
  | .task (.merged i parts) => .mergeTask i parts
  | _ => .refuse (.fault .noMember)

/-- The steps of a merge that is asked for. -/
def Object.regeneration (s : Store α) (o : Object) : List UpdateStep :=
  s.permit o [.regenerate] ++ [o.mergeStep]

namespace Build

variable [Zero α] [One α] [Add α] [Sub α] [Mul α] [Neg α] [BoundScalar α] {state : ArrayData α}

theorem exec_update (o : Object) :
    (update state o).exec s = (performAll state (o.schedule s s.depth)).exec s := by
  unfold update
  rw [exec_bind_ok exec_get]

/-- The state does not matter to a pass that only merges. -/
theorem exec_regenerate (state : ArrayData α) (o : Object) :
    (regenerate o).exec s = (performAll state (o.regeneration s)).exec s := by
  have asked : [Operation.regenerate].forM (s.checkCallable o) = s.checkCallable o .regenerate :=
    bind_pure _
  unfold regenerate Object.regeneration Store.permit
  rw [exec_bind_ok exec_get, asked]
  cases called : s.checkCallable o .regenerate with
  | error e => rfl
  | ok _ =>
    rw [exec_lift_ok rfl]
    change _ = (performAll state [o.mergeStep]).exec s
    rw [performAll_singleton]
    cases o with
    | constraint c => cases c <;> rfl
    | task v => cases v <;> rfl
    | _ => rfl

end Build

end Calls

end ControlHierarchy
