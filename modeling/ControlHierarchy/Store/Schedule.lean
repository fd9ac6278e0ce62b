import ControlHierarchy.Store.Merging

/-!
# Update passes

An update brings a whole hierarchy up to date with a state. Which cells it
touches, and in which order, depends on the hierarchy alone: parts come before
the aggregate that merges them, and a task comes before its constraints. This
order is the schedule of the pass, a plain list of steps. The pass performs the
steps in turn and stops at the first one that fails. Where something else was
assigned in the place of an operation that the pass needs, or of a list that it
goes through, a step that refuses to go on stands in the schedule.

Parts form trees, but tasks and stacks that are attached to tasks or listed in
stacks may lead back to where they came from. A walk from one such object to the
next one visits each task and each stack once at most, unless it runs in a
circle; so their number bounds its depth, and a walk that goes deeper is given
up.

Main statements: the schedule of a list is made of those of its items, and so is
the pass (`scheduleAll_eq_flatMap`, `performAll_append`); a constraint is in
reach of any walk (`Object.schedule_constraint`), and a stack of tasks in reach
of an update (`Object.schedule_task`, `Object.schedule_stack`,
`Store.two_le_depth`).
-/

namespace ControlHierarchy

/-- A step of an update pass. -/
inductive UpdateStep where
  | refreshConstraint (id : Nat)
  | mergeConstraint (id : Nat) (parts : List ConstraintRef)
  | refreshTask (id : Nat)
  | mergeTask (id : Nat) (parts : List TaskRef)
  /-- The pass cannot go on. -/
  | refuse (error : Error)

variable {α : Type}

def Store.permit (s : Store α) (owner : Object) (operations : List Operation) : List UpdateStep :=
  match operations.forM (s.checkCallable owner) with
  | .ok () => []
  | .error e => [.refuse e]

/-- The steps of the parts of an aggregate, unless it has none at the moment, or
cannot ask them. -/
def stepsOfParts {β : Type} (present : Except Error (List β)) (steps : List UpdateStep) :
    List UpdateStep :=
  match present with
  | .ok [] => []
  | .ok _ => steps
  | .error e => [.refuse e]

/-- The steps that bring listed objects up to date, if they can be gone through at all. -/
def stepsOfListed (visit : Object → List UpdateStep) : Except Error (List Object) → List UpdateStep
  | .ok objects => objects.flatMap visit
  | .error e => [.refuse e]

mutual

def ConstraintRef.schedule (s : Store α) : ConstraintRef → List UpdateStep
  | .leaf i => s.permit (.constraint (.leaf i)) [.update] ++ [.refreshConstraint i]
  | .merged i parts =>
    s.permit (.constraint (.merged i parts)) [.update] ++
      stepsOfParts (s.constraintParts (.merged i parts)) (ConstraintRef.scheduleAll s parts) ++
      s.permit (.constraint (.merged i parts)) [.regenerate] ++ [.mergeConstraint i parts]

/-- The steps that bring several constraints up to date. -/
def ConstraintRef.scheduleAll (s : Store α) : List ConstraintRef → List UpdateStep
  | [] => []
  | c :: rest => c.schedule s ++ ConstraintRef.scheduleAll s rest

end

/-- The schedule of several constraints is made of theirs, in order. -/
theorem ConstraintRef.scheduleAll_eq_flatMap (s : Store α) (cs : List ConstraintRef) :
    ConstraintRef.scheduleAll s cs = cs.flatMap (ConstraintRef.schedule s) := by
  induction cs with
  | nil => rfl
  | cons c cs ih => rw [ConstraintRef.scheduleAll, ih, List.flatMap_cons]

mutual

/-- The steps that bring a task and what is attached to it up to date, given
those of the attached objects. An aggregate leaves what is attached to its parts
to the parts. -/
def TaskRef.schedule (s : Store α) (visit : Object → List UpdateStep) : TaskRef → List UpdateStep
  | .leaf i =>
    s.permit (.task (.leaf i)) [.update, .refresh] ++ [.refreshTask i] ++
      stepsOfListed visit (s.attached (.leaf i))
  | .merged i parts =>
    s.permit (.task (.merged i parts)) [.update, .refresh] ++
      stepsOfParts (s.taskParts (.merged i parts)) (TaskRef.scheduleAll s visit parts) ++
      stepsOfListed visit (s.ownConstraints (.merged i parts)) ++
      s.permit (.task (.merged i parts)) [.regenerate] ++ [.mergeTask i parts]

/-- The steps that bring several tasks up to date. -/
def TaskRef.scheduleAll (s : Store α) (visit : Object → List UpdateStep) :
    List TaskRef → List UpdateStep
  | [] => []
  | t :: rest => t.schedule s visit ++ TaskRef.scheduleAll s visit rest

end

/-- The schedule of several tasks is made of theirs, in order. -/
theorem TaskRef.scheduleAll_eq_flatMap (s : Store α) (visit : Object → List UpdateStep)
    (ts : List TaskRef) :
    TaskRef.scheduleAll s visit ts = ts.flatMap (TaskRef.schedule s visit) := by
  induction ts with
  | nil => rfl
  | cons t ts ih => rw [TaskRef.scheduleAll, ih, List.flatMap_cons]

/-- The steps that bring the aggregate of the bounds of a stack up to date. An
array in its place cannot be. -/
def Store.scheduleBounds (s : Store α) (id : Nat) : List UpdateStep :=
  match s.arrayIn? (.stack id) (.backing .mergedBounds) with
  | some _ => [.refuse (.fault .noMember)]
  | none => ConstraintRef.scheduleAll s (s.stackCells.read id).merged.toList

/-- The steps that bring the levels of a stack, and then its bounds, up to date,
given those of the levels. -/
def Store.scheduleStack (s : Store α) (visit : Object → List UpdateStep) (id : Nat) :
    List UpdateStep :=
  s.permit (.stack id) [.update] ++ stepsOfListed visit (s.levels id) ++ s.scheduleBounds id

/-- The steps that bring an object up to date, by a walk of bounded depth. -/
def Object.schedule (s : Store α) : (depth : Nat) → Object → List UpdateStep
  | _, .constraint c => c.schedule s
  | depth + 1, .task t => t.schedule s (Object.schedule s depth)
  | depth + 1, .stack id => s.scheduleStack (Object.schedule s depth) id
  | 0, .task _ | 0, .stack _ => [.refuse (.fault .endless)]
  | _, _ => [.refuse (.fault .noMember)]

theorem Object.schedule_constraint (s : Store α) (depth : Nat) (c : ConstraintRef) :
    Object.schedule s depth (.constraint c) = c.schedule s := by
  cases depth <;> rfl

theorem Object.schedule_task (s : Store α) (depth : Nat) (t : TaskRef) :
    Object.schedule s (depth + 1) (.task t) = t.schedule s (Object.schedule s depth) := rfl

theorem Object.schedule_stack (s : Store α) (depth id : Nat) :
    Object.schedule s (depth + 1) (.stack id) = s.scheduleStack (Object.schedule s depth) id := rfl

/-- A depth that no walk from object to object exceeds, unless it runs in a circle. -/
def Store.depth (s : Store α) : Nat := s.leafTasks.next + s.mergedTasks.next + s.stackCells.next + 2

theorem Store.two_le_depth (s : Store α) : 2 ≤ s.depth := Nat.le_add_left 2 _

namespace Build

/-- Brings a leaf constraint up to date. -/
def refreshConstraint [Zero α] [Add α] [Sub α] (state : ArrayData α) (id : Nat) : Build α Unit := do
  let s ← get
  let c ← (s.leafConstraints.read id).refresh state
  set { s with leafConstraints := s.leafConstraints.write id c }

/-- Brings a leaf task up to date. -/
def refreshTask [Zero α] [Neg α] (state : ArrayData α) (id : Nat) : Build α Unit := do
  let s ← get
  let t ← (s.leafTasks.read id).refresh state
  set { s with leafTasks := s.leafTasks.write id t }

variable [Zero α] [One α] [Add α] [Sub α] [Mul α] [Neg α] [BoundScalar α]

def perform (state : ArrayData α) : UpdateStep → Build α Unit
  | .refreshConstraint id => refreshConstraint state id
  | .mergeConstraint id parts => mergeConstraint id parts
  | .refreshTask id => refreshTask state id
  | .mergeTask id parts => mergeTask id parts
  | .refuse error => throw error

/-- Performs the steps of a schedule in turn. -/
def performAll (state : ArrayData α) : List UpdateStep → Build α Unit
  | [] => pure ()
  | step :: rest => do
    perform state step
    performAll state rest

/-- A pass over two schedules is a pass over the first followed by one over the second. -/
theorem performAll_append (state : ArrayData α) (steps rest : List UpdateStep) :
    performAll state (steps ++ rest) = (do performAll state steps; performAll state rest) := by
  induction steps with
  | nil => simp [performAll]
  | cons step steps ih => simp [performAll, ih]

theorem performAll_singleton (state : ArrayData α) (step : UpdateStep) :
    performAll state [step] = perform state step :=
  bind_pure (perform state step)

/-- Brings an object up to date, with all that hangs below it. -/
def update (state : ArrayData α) (o : Object) : Build α Unit := do
  let s ← get
  performAll state (o.schedule s s.depth)

end Build

end ControlHierarchy
