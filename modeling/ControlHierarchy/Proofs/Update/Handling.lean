import ControlHierarchy.Proofs.Task.Solvable
import ControlHierarchy.Proofs.Update.Assembled
import ControlHierarchy.Proofs.Update.Circles
import ControlHierarchy.Proofs.Update.Labelling

/-!
# Runs of one task

A task is declared with explicit arrays, or built as an aggregate. Then it is given
new arrays, weights, gains and constraints, updated and merged again, by calls that
may fail; between the calls anything may happen to everything else (`Handling`). The
task stays solvable throughout, and a call that fails leaves it as it was
(`Handling.stays_solvable`).

Each call looks at the number of rows at another moment: a weight when it is set, new
arrays and new rows of a merge when they are about to be stored. What carries the
invariant is that the weight in force always has the shape of the rows, so that each
of these checks compares with the right number.
-/

namespace ControlHierarchy

variable {α : Type}

/-- What can be asked of a task. -/
inductive OwnCall (α : Type)
  | setArrays (matrix reference : Option (ArrayData α))
  | setWeight (weight : ArrayData α)
  | resetWeight
  | setGain (gain : Option α)
  | attach (o : Object)
  | update (state : ArrayData α)
  | regenerate

/-- Performs a call on a task. Aggregates have no setter for their arrays. -/
def OwnCall.perform [Zero α] [One α] [Add α] [Sub α] [Mul α] [Neg α] [Scalar α] [BoundScalar α]
    (r : TaskRef) : OwnCall α → Build α Unit
  | setArrays matrix reference =>
    match r with
    | .leaf _ => Build.changeTask r (TaskBody.setArrays matrix reference)
    | .merged .. => throw (.fault .noMember)
  | setWeight weight => Build.changeTask r (TaskBody.setWeight weight)
  | resetWeight => Build.changeTask r fun body => .ok body.resetWeight
  | setGain gain => Build.changeTask r (TaskBody.setGain gain)
  | attach o => Build.attach r o
  | update state => Build.update state (.task r)
  | regenerate => Build.regenerate (.task r)

/-! ### The invariant -/

/-- All tasks have numbers as their gains. -/
def Store.Numeric (s : Store α) : Prop := ∀ t, ∃ g, (s.taskBody t).gain = .scalar g

namespace Store

variable {s t : Store α} {r : TaskRef} {members : Set Object}

theorem numeric_iff : s.Numeric ↔ s.TasksLabelled ∅ := by
  constructor
  · exact fun h => ⟨fun i => h (.leaf i), fun i => h (.merged i []), nofun, nofun⟩
  · exact fun h t => h.gain t

/-- Another task keeps its body, or it has the same cell. -/
theorem taskBody_of_setTaskBody (s : Store α) (r t : TaskRef) (body : TaskBody α) :
    (s.setTaskBody r body).taskBody t = body ∨
      (s.setTaskBody r body).taskBody t = s.taskBody t := by
  cases r with
  | leaf i =>
    cases t with
    | leaf j =>
      simp only [taskBody, setTaskBody, Cells.read_write]
      split
      · exact .inl rfl
      · exact .inr rfl
    | merged j parts => exact .inr rfl
  | merged i parts =>
    cases t with
    | leaf j => exact .inr rfl
    | merged j parts =>
      simp only [taskBody, setTaskBody, Cells.read_write]
      split
      · exact .inl rfl
      · exact .inr rfl

/-- A task over `n` variables, either an aggregate or one with explicit arrays, can be
solved for. -/
structure Handled [Zero α] [One α] [Scalar α] (members : Set Object) (r : TaskRef) (n : Nat)
    (s : Store α) : Prop where
  names : s.Names members r
  numeric : s.Numeric
  explicit : ∀ i, r = .leaf i → (s.leafTasks.read i).rule = .explicit
  solvable : (s.taskBody r).Solvable n

variable [Zero α] [One α] [Scalar α] {n : Nat} {o : Object}

/-- A new body that can be solved for takes the place of the old one. -/
theorem Handled.setTaskBody (h : s.Handled members r n) {body : TaskBody α}
    (solvable : body.Solvable n) (constraints : body.constraints = (s.taskBody r).constraints) :
    (s.setTaskBody r body).Handled members r n where
  names := h.names.setTaskBody fun _ _ => constraints
  numeric u := by
    obtain ⟨g, gain, -⟩ := solvable.gain
    rcases taskBody_of_setTaskBody s r u body with new | old
    · rw [new]
      exact ⟨g, gain⟩
    · rw [old]
      exact h.numeric u
  explicit i here := by
    subst here
    simp only [Store.setTaskBody, Cells.read_write_self]
    exact h.explicit i rfl
  solvable := by
    rw [taskBody_setTaskBody]
    exact solvable

/-- An object with an unambiguous reference is attached to the task. -/
theorem Handled.withAttached (h : s.Handled members r n) (known : o ∈ members)
    (numeric : (s.withAttached r o).Numeric) : (s.withAttached r o).Handled members r n where
  names := h.names.withAttached known
  numeric := numeric
  explicit i here := by
    subst here
    simp only [Store.withAttached, Cells.read_write_self]
    exact h.explicit i rfl
  solvable := by
    rw [taskBody_withAttached]
    exact h.solvable.withAttached [o]

/-- Whether a task can be solved for depends on its own cell. -/
theorem Handled.of_cell (h : s.Handled members r n) (cell : s.SameCell t (.task r))
    (names : t.Names members r) (numeric : t.Numeric) : t.Handled members r n where
  names := names
  numeric := numeric
  explicit i here := by
    subst here
    have cell : t.leafTasks.read i = s.leafTasks.read i := cell
    rw [cell]
    exact h.explicit i rfl
  solvable := by
    have body : t.taskBody r = s.taskBody r := cell.sameAsPart
    rw [body]
    exact h.solvable

/-- A call on a task ended: the task can still be solved for, and it is as it was if the
call failed. -/
structure Withstood (members : Set Object) (r : TaskRef) (n : Nat) (s : Store α)
    (outcome : Except Error Unit) (t : Store α) : Prop where
  handled : t.Handled members r n
  kept : ∀ e, outcome = .error e → s.SameCell t (.task r)

theorem Handled.withstood (h : s.Handled members r n) (outcome : Except Error Unit) :
    s.Withstood members r n outcome s :=
  ⟨h, fun _ _ => .refl s _⟩

end Store

/-! ### Calls -/

namespace Store.Handled

variable {s t : Store α} {r : TaskRef} {members : Set Object} {n : Nat}
  {outcome : Except Error Unit} {o : Object}

section Changes

variable [Zero α] [One α] [Scalar α]

/-- A change that keeps a task solvable, or is refused. -/
theorem changeTask (h : s.Handled members r n) {change : TaskBody α → Except Error (TaskBody α)}
    (kept : ∀ u, change (s.taskBody r) = .ok u →
      u.Solvable n ∧ u.constraints = (s.taskBody r).constraints)
    (run : (Build.changeTask r change).exec s = (outcome, t)) :
    s.Withstood members r n outcome t := by
  rw [Build.exec_changeTask] at run
  cases changed : change (s.taskBody r) with
  | error e =>
    rw [changed] at run
    cases run
    exact h.withstood _
  | ok body =>
    rw [changed] at run
    cases run
    obtain ⟨solvable, constraints⟩ := kept body changed
    exact ⟨h.setTaskBody solvable constraints, nofun⟩

theorem setArrays (h : s.Handled members r n) {matrix reference : Option (ArrayData α)}
    (run : (Build.changeTask r (TaskBody.setArrays matrix reference)).exec s = (outcome, t)) :
    s.Withstood members r n outcome t := by
  refine h.changeTask (fun u set => ⟨?_, ?_⟩) run
  · exact TaskBody.solvable_of_setArrays h.solvable.size (fun w => h.solvable.weight)
      h.solvable.gain set
  · obtain ⟨_, _, -, -, -, rfl⟩ := TaskBody.setArrays_eq_ok set
    rfl

theorem setWeight (h : s.Handled members r n) {weight : ArrayData α}
    (run : (Build.changeTask r (TaskBody.setWeight weight)).exec s = (outcome, t)) :
    s.Withstood members r n outcome t := by
  refine h.changeTask (fun u set => ⟨h.solvable.setWeight set, ?_⟩) run
  obtain ⟨_, -, -, -, rfl⟩ := TaskBody.setWeight_eq_ok set
  rfl

theorem resetWeight (h : s.Handled members r n)
    (run : (Build.changeTask r fun body => .ok body.resetWeight).exec s = (outcome, t)) :
    s.Withstood members r n outcome t := by
  refine h.changeTask (fun u set => ?_) run
  cases set
  exact ⟨h.solvable.resetWeight, rfl⟩

theorem setGain (h : s.Handled members r n) {gain : Option α}
    (run : (Build.changeTask r (TaskBody.setGain gain)).exec s = (outcome, t)) :
    s.Withstood members r n outcome t := by
  refine h.changeTask (fun u set => ⟨h.solvable.setGain set, ?_⟩) run
  obtain ⟨_, -, set⟩ := bind_eq_ok.1 set
  cases set
  rfl

theorem attach (h : s.Handled members r n) (known : o ∈ members)
    (run : (Build.attach r o).exec s = (outcome, t)) : s.Withstood members r n outcome t := by
  rcases outcome with e | ⟨⟩
  · rw [Build.eq_of_attach (h.names.lists _) run]
    exact h.withstood _
  · have numeric : t.Numeric := by
      have labelled := (Build.keeps_attach r o s (numeric_iff.1 h.numeric)).1
      rw [run] at labelled
      exact numeric_iff.2 labelled
    obtain ⟨-, -, rfl⟩ := Build.exec_attach run
    exact ⟨h.withAttached known numeric, nofun⟩

end Changes

section Merging

variable [Zero α] [One α] [Add α] [Mul α] [Scalar α]

/-- A merge of the task with other parts than before, in any state. -/
theorem mergeTask {i : Nat} {parts : List TaskRef} (h : s.Handled members (.merged i parts) n)
    (run : (Build.mergeTask i parts).exec s = (outcome, t)) :
    s.Withstood members (.merged i parts) n outcome t := by
  rcases outcome with e | ⟨⟩
  · rw [Build.eq_of_mergeTask run]
    exact h.withstood _
  · have labelled := (Build.keeps_mergeTask i parts s (numeric_iff.1 h.numeric)).1
    rw [run] at labelled
    obtain ⟨present, d, events, retired, -, merged, rfl⟩ := Build.afterMerge_of_mergeTask run
    have gains : ∀ b ∈ present.map s.taskBody, ∃ g, b.gain = .scalar g :=
      List.forall_mem_map.2 fun p _ => h.numeric p
    have solvable := MergedTask.solvable_of_regenerate h.solvable gains merged
    have own : d.own = (s.mergedTasks.read i).own := by
      obtain ⟨_, -, rfl⟩ := MergedTask.withRows_of_regenerate merged
      rfl
    have names : (s.afterMerge i parts d retired events).Names members (.merged i parts) :=
      h.names.of_links (sameLinks_afterMerge own) fun kept => arrayIn?_eraseAll (h.names.lists kept)
    refine ⟨⟨names, numeric_iff.2 labelled, nofun, ?_⟩, nofun⟩
    have read : (s.afterMerge i parts d retired events).mergedTasks.read i = d :=
      Cells.read_write_self _ _ _
    rw [taskBody, read]
    exact solvable

theorem regenerate [Neg α] [BoundScalar α] (h : s.Handled members r n)
    (run : (Build.regenerate (.task r)).exec s = (outcome, t)) :
    s.Withstood members r n outcome t := by
  unfold Build.regenerate at run
  rw [Build.exec_bind_ok Build.exec_get] at run
  cases called : s.checkCallable (.task r) .regenerate with
  | error e =>
    rw [called] at run
    cases run
    exact h.withstood _
  | ok _ =>
    rw [Build.exec_lift_ok called] at run
    cases r with
    | leaf i =>
      cases run
      exact h.withstood _
    | merged i parts => exact h.mergeTask run

end Merging

variable [Zero α] [One α] [Add α] [Sub α] [Mul α] [Neg α] [Scalar α] [BoundScalar α]
  {state : ArrayData α}

/-- A pass that does not change the task itself. -/
theorem performAll (h : s.Handled members r n) {steps : List UpdateStep}
    (run : (Build.performAll state steps).exec s = (outcome, t))
    (cell : s.SameCell t (.task r)) : t.Handled members r n := by
  have labelled := (Build.keeps_performAll state steps s (numeric_iff.1 h.numeric)).1
  rw [run] at labelled
  exact h.of_cell cell (Build.names_of_performAll run h.names) (numeric_iff.2 labelled)

theorem update (h : s.Handled members r n)
    (run : (Build.update state (.task r)).exec s = (outcome, t)) :
    s.Withstood members r n outcome t := by
  cases r with
  | leaf i =>
    rw [Build.exec_update] at run
    have cell : s.SameCell t (.task (.leaf i)) :=
      Build.leafTask_of_performAll run (h.explicit i rfl)
    exact ⟨h.performAll run cell, fun _ _ => cell⟩
  | merged i parts =>
    rcases Build.outcome_of_update h.names.closed h.names.member run with
      ⟨e, rfl, cell⟩ | ⟨rfl, steps, u, performed, cell, merged⟩
    · rw [Build.exec_update] at run
      exact ⟨h.performAll run cell, fun _ _ => cell⟩
    · exact ⟨((h.performAll performed cell).mergeTask merged).handled, nofun⟩

/-- Whatever is asked of a task, it can still be solved for, and it is as it was if the
call fails. -/
theorem call {call : OwnCall α} (h : s.Handled members r n)
    (operand : ∀ o, call = .attach o → o ∈ members)
    (run : (call.perform r).exec s = (outcome, t)) : s.Withstood members r n outcome t := by
  cases call with
  | setArrays matrix reference =>
    cases r with
    | leaf i => exact h.setArrays run
    | merged i parts =>
      cases run
      exact h.withstood _
  | setWeight weight => exact h.setWeight run
  | resetWeight => exact h.resetWeight run
  | setGain gain => exact h.setGain run
  | attach o => exact h.attach (operand o rfl) run
  | update state => exact h.update run
  | regenerate => exact h.regenerate run

end Store.Handled

/-! ### New tasks -/

namespace Store

variable {s t : Store α} {r : TaskRef} {members : Set Object} {n : Nat}

theorem handled_newLeafTask [Zero α] [One α] [Scalar α] {leaf : LeafTask α} (numeric : s.Numeric)
    (run : (Build.newLeafTask leaf).exec s = (.ok r, t)) (names : t.Names members r)
    (explicit : leaf.rule = .explicit) (solvable : leaf.body.Solvable n) :
    t.Handled members r n := by
  obtain ⟨g, gain, -⟩ := solvable.gain
  have labelled := Build.delivers_newLeafTask ⟨g, gain⟩ s (numeric_iff.1 numeric)
  rw [run] at labelled
  cases run
  have read : (s.leafTasks.write s.leafTasks.next leaf).read s.leafTasks.next = leaf :=
    Cells.read_write_self _ _ _
  refine ⟨names, numeric_iff.2 labelled, ?_, ?_⟩
  · rintro _ ⟨⟩
    exact (congrArg LeafTask.rule read).trans explicit
  · rw [taskBody, read]
    exact solvable

variable [Zero α] [One α] [Add α] [Mul α] [Scalar α] {k : Int} {parts : List TaskRef}
  {own : List Object}

theorem Assembled.handled {name : String} (h : s.Assembled name k parts own r t)
    (numeric : s.Numeric) (names : t.Names members r) (size : (t.taskBody r).size = n) :
    t.Handled members r n := by
  obtain ⟨natural, unit, rfl, rows, events, merged, rfl⟩ := h
  have gains : ∀ b ∈ parts.map s.taskBody, ∃ g, b.gain = .scalar g :=
    List.forall_mem_map.2 fun p _ => numeric p
  obtain ⟨m, v, rfl, width⟩ := TaskRows.exists_of_merge merged
  simp only [taskBody, Cells.read_write_self] at size
  subst size
  refine ⟨names, fun u => ?_, (fun i here => by cases here), ?_⟩
  · cases u with
    | leaf j => exact numeric (.leaf j)
    | merged j more =>
      simp only [taskBody, Cells.read_write]
      split
      · exact ⟨1, rfl⟩
      · exact numeric (.merged j more)
  · simp only [taskBody, Cells.read_write_self]
    exact TaskBody.solvable_of_arrays rfl rfl width rfl (TaskRows.length_of_merge merged gains)
      (fun w set => by cases set) ⟨1, rfl, unit⟩

end Store

/-! ### Runs -/

section Runs

variable [Zero α] [One α] [Add α] [Sub α] [Mul α] [Neg α] [Scalar α] [BoundScalar α]
  {s t : Store α} {r : TaskRef} {members : Set Object} {n : Nat}

/-- The stores of a task over `n` variables, from when it is declared or built, in which
all gains are numbers. Between the calls anything may happen to other tasks and to
whatever else there is. -/
inductive Handling (members : Set Object) (r : TaskRef) (n : Nat) : Store α → Prop
  | declare {s t : Store α} {name : String} {matrix : ArrayData α}
      {reference : Option (ArrayData α)} {gain : Option α} {leaf : LeafTask α}
      (declared : LeafTask.explicit name matrix reference gain = .ok leaf)
      (size : leaf.body.size = n) (numeric : s.Numeric)
      (run : (Build.newLeafTask leaf).exec s = (.ok r, t)) (names : t.Names members r) :
      Handling members r n t
  | merge {s t : Store α} {parts : List TaskRef} (numeric : s.Numeric)
      (run : (Build.mergeTasks parts n).exec s = (.ok r, t)) (names : t.Names members r) :
      Handling members r n t
  | mergeAtState {s t : Store α} {parts : List TaskRef} {state : ArrayData α}
      (numeric : s.Numeric) (run : (Build.mergeTasksAtState parts state).exec s = (.ok r, t))
      (names : t.Names members r) (size : (t.taskBody r).size = n) : Handling members r n t
  | add {s t : Store α} {a b : TaskRef} (numeric : s.Numeric)
      (run : (Build.addTasks a b).exec s = (.ok r, t)) (names : t.Names members r)
      (size : (t.taskBody r).size = n) : Handling members r n t
  | call {s t : Store α} {call : OwnCall α} {outcome : Except Error Unit}
      (before : Handling members r n s) (operand : ∀ o, call = .attach o → o ∈ members)
      (run : (call.perform r).exec s = (outcome, t)) : Handling members r n t
  | elsewhere {s t : Store α} (before : Handling members r n s)
      (cell : s.SameCell t (.task r)) (names : t.Names members r) (numeric : t.Numeric) :
      Handling members r n t

theorem Handling.handled (h : Handling members r n s) : s.Handled members r n := by
  induction h with
  | @declare s t name matrix reference gain leaf declared size numeric run names =>
    obtain ⟨explicit, -, k, solvable⟩ := LeafTask.solvable_of_explicit declared
    obtain rfl : k = n := Int.ofNat_inj.1 (solvable.size.symm.trans size)
    exact Store.handled_newLeafTask numeric run names explicit solvable
  | merge numeric run names =>
    have assembled := Build.assembled_mergeTasks run
    refine assembled.handled numeric names ?_
    obtain ⟨-, -, rfl, _, _, -, rfl⟩ := assembled
    simp only [Store.taskBody, Cells.read_write_self]
  | @mergeAtState s t parts state numeric run names size =>
    obtain ⟨_, x, event, steps, u, performed, assembled⟩ := Build.assembled_mergeTasksAtState run
    have labelled := (Build.keeps_performAll (.shaped x) steps (s.withLog [event])
      (Store.numeric_iff.1 numeric)).1
    rw [performed] at labelled
    exact assembled.handled (Store.numeric_iff.2 labelled) names size
  | add numeric run names size =>
    obtain ⟨_, _, _, _, -, -, assembled⟩ := Build.assembled_addTasks run
    exact assembled.handled numeric names size
  | call before operand run ih => exact (ih.call operand run).handled
  | elsewhere before cell names numeric ih => exact ih.of_cell cell names numeric

/-- After any call in any run, whether it succeeds or fails, the task has a matrix over
its `n` variables, a reference and a weight with as many rows, a gain between zero and
one, and an objective. A call that fails leaves its arrays, its gain, its label and its
lists of constraints as they were. -/
theorem Handling.stays_solvable (h : Handling members r n s) {call : OwnCall α}
    (operand : ∀ o, call = .attach o → o ∈ members) {outcome : Except Error Unit}
    (run : (call.perform r).exec s = (outcome, t)) :
    ((t.taskBody r).Solvable n ∧ ∃ o, (t.taskBody r).objective = .ok o ∧
      o.hessian.shape = [n, n] ∧ o.linear.shape = [n]) ∧
    ∀ e, outcome = .error e → t.taskBody r = s.taskBody r ∧
      t.attachedTo (.task r) = s.attachedTo (.task r) := by
  obtain ⟨handled, kept⟩ := h.handled.call operand run
  refine ⟨⟨handled.solvable, handled.solvable.objective⟩, fun e failed => ?_⟩
  have cell := kept e failed
  refine ⟨cell.sameAsPart, ?_⟩
  cases r with
  | leaf i => exact congrArg (fun leaf => leaf.body.constraints) cell
  | merged i parts => exact congrArg MergedTask.own cell

end Runs

/-! ### A child that loses a row -/

/-- The aggregate of the task that asks for two variables to be one. -/
def pairAggregate : TaskRef := .merged 0 [.leaf 0]

/-- The task without its second row. -/
def shortPair : LeafTask ℚ :=
  { pairTask with body := { pairTask.body with
      matrix := .matrix ⟨1, 2, [1, 0], rfl⟩
      reference := .vector [1] } }

def pairMembers : Set Object := {.task pairAggregate, .task (.leaf 0)}

/-- The aggregate and its part have one reference each when nothing is attached to them. -/
theorem names_pairAggregate {s : Store ℚ} (notes : s.notes = [])
    (own : (s.mergedTasks.read 0).own = [])
    (constraints : (s.leafTasks.read 0).body.constraints = []) :
    s.Names pairMembers pairAggregate where
  closed := by
    refine ⟨?_, ?_, ?_⟩
    · rintro o (rfl | rfl)
      · exact List.forall_mem_singleton.2 (.inr rfl)
      · exact List.forall_mem_nil _
    · rintro o (rfl | rfl)
      · rw [show s.attachedTo (.task pairAggregate) = [] from own]
        exact List.forall_mem_nil _
      · rw [show s.attachedTo (.task (.leaf 0)) = [] from constraints]
        exact List.forall_mem_nil _
    · rintro a (rfl | rfl) b (rfl | rfl) same
      · rfl
      · cases same
      · cases same
      · rfl
  member := .inl rfl
  lists kept := by
    rw [Store.arrayIn?, Store.cellIn?, notes]
    rfl

/-- The task and its aggregate. -/
def mergedPair : Store ℚ :=
  ((Build.mergeTasks [.leaf 0] 2).exec { (Store.empty : Store ℚ) with
    leafTasks := Store.empty.leafTasks.write 0 pairTask }).2

/-- The aggregate has a weight of its own for two rows. -/
def weighedPair : Store ℚ :=
  (((OwnCall.setWeight (.list [.number 1, .number (-1)])).perform pairAggregate).exec mergedPair).2

/-- The part of the aggregate has lost a row. -/
def shortenedPair : Store ℚ :=
  { weighedPair with leafTasks := weighedPair.leafTasks.write 0 shortPair }

theorem handling_shortenedPair : Handling pairMembers pairAggregate 2 shortenedPair := by
  have numeric : { (Store.empty : Store ℚ) with
      leafTasks := Store.empty.leafTasks.write 0 pairTask }.Numeric :=
    Store.numeric_iff.2 (Store.TasksLabelled.start.writeLeaf rfl rfl ⟨1, rfl⟩)
  have built : Handling pairMembers pairAggregate 2 mergedPair :=
    .merge numeric (Prod.ext (by with_unfolding_all rfl) rfl)
      (names_pairAggregate (by with_unfolding_all rfl) (by with_unfolding_all rfl)
        (by with_unfolding_all rfl))
  have weighed : Handling pairMembers pairAggregate 2 weighedPair :=
    built.call (fun o h => by cases h) (Prod.ext (Eq.refl _) rfl)
  have written : shortenedPair.leafTasks = weighedPair.leafTasks.write 0 shortPair := rfl
  have numbers : shortenedPair.Numeric := Store.numeric_iff.2
    ((Store.numeric_iff.1 weighed.handled.numeric).writeLeaf written rfl ⟨1, rfl⟩)
  refine weighed.elsewhere rfl (names_pairAggregate ?_ ?_ ?_) numbers
  · with_unfolding_all rfl
  · with_unfolding_all rfl
  · exact congrArg (·.body.constraints) (weighedPair.leafTasks.read_write_self 0 shortPair)

/-- A weight for two rows is set on the aggregate, and then its part loses a row. The
aggregate cannot be merged any more, but it keeps its rows and its objective. -/
theorem shortPair_withstood : ∃ s t : Store ℚ, ∃ e,
    s.leafTasks.read 0 = shortPair ∧
    ((OwnCall.regenerate : OwnCall ℚ).perform pairAggregate).exec s = (.error e, t) ∧
      (t.taskBody pairAggregate).Solvable 2 ∧
      t.taskBody pairAggregate = s.taskBody pairAggregate := by
  have refused : (((OwnCall.regenerate : OwnCall ℚ).perform pairAggregate).exec
      shortenedPair).1.isOk = false := by decide +kernel
  rcases run : ((OwnCall.regenerate : OwnCall ℚ).perform pairAggregate).exec shortenedPair
    with ⟨e | ⟨⟩, t⟩
  · obtain ⟨⟨solvable, -⟩, kept⟩ :=
      handling_shortenedPair.stays_solvable (fun o h => by cases h) run
    exact ⟨shortenedPair, t, e, Cells.read_write_self _ _ _, run, solvable, (kept e rfl).1⟩
  · rw [run] at refused
    cases refused

end ControlHierarchy
